/-! What the library reports about its own doings. Entries are collected in the
order in which they arise; which of them are shown is the reader's choice. -/
namespace Precompiled

/-- How much an entry matters, most important first. -/
inductive Level where
  | warn
  | info
  | debug
  | trace
  deriving DecidableEq, Repr

namespace Level

def rank : Level → Nat
  | .warn => 0
  | .info => 1
  | .debug => 2
  | .trace => 3

def label : Level → String
  | .warn => "WARN"
  | .info => "INFO"
  | .debug => "DEBUG"
  | .trace => "TRACE"

/-- Whether an entry of this level is shown when everything down to `limit` is. -/
def within (level limit : Level) : Bool :=
  level.rank ≤ limit.rank

end Level

/-- The part of the job an entry is about. -/
inductive Topic where
  | loading
  | classes
  | methods
  | deoptimization
  deriving DecidableEq, Repr

def Topic.target : Topic → String
  | .loading => "aot::load"
  | .classes => "aot::class"
  | .methods => "aot::method"
  | .deoptimization => "aot::deopt"

structure JournalEntry where
  level : Level
  topic : Topic
  text : String
  deriving DecidableEq, Repr

def JournalEntry.render (entry : JournalEntry) : String :=
  entry.level.label ++ " " ++ entry.topic.target ++ " " ++ entry.text

/-- Entries in the order in which they were made. -/
abbrev Journal := List JournalEntry

/-- A computation that reports what it does. -/
abbrev Reported := StateM Journal

namespace Reported

/-- Adds an entry. -/
def note (level : Level) (topic : Topic) (text : String) : Reported Unit :=
  modify fun journal => journal ++ [⟨level, topic, text⟩]

end Reported

end Precompiled
