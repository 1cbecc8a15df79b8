/-!
What limits compiling and publishing.
-/

namespace ByteAutomata

structure Config where
  /-- Publish a deterministic automaton where it fits its budget. -/
  determinize : Bool := true
  /-- The most states a deterministic automaton may have. -/
  maxDfaStates : Nat := 10000
  /-- The largest bound a quantifier may have. -/
  maxQuantifier : Nat := 100
  /-- The most copies of atoms a regexp may unroll to. -/
  maxExpansion : Nat := 10000
  /-- Rune sets of at least this size are built once, as a template. -/
  shellCacheMinRunes : Nat := 4096
  deriving DecidableEq, Repr

inductive ConfigError where
  /-- The text is no document of settings. -/
  | unreadable
  /-- A setting is zero and must not be. -/
  | tooSmall (setting : String)
  deriving DecidableEq, Repr

def ConfigError.message : ConfigError → String
  | unreadable => "config parse error"
  | tooSmall setting => s!"config error: {setting} must be at least 1"

namespace Config

/-- Refuses limits that would let nothing through. -/
def validate (config : Config) : Except ConfigError Unit :=
  if config.maxDfaStates = 0 then .error (.tooSmall "max_dfa_states")
  else if config.maxQuantifier = 0 then .error (.tooSmall "max_quantifier")
  else if config.maxExpansion = 0 then .error (.tooSmall "max_expansion")
  else .ok ()

end Config

end ByteAutomata
