/-!
Log records: how grave they are, where they come from, and what they say.
-/
namespace FeedOutline.Log

/-- Levels are numbers; those with a name lie ten apart. -/
abbrev Level := Int

namespace Level

abbrev debug : Level := 10
abbrev info : Level := 20
abbrev warning : Level := 30
abbrev error : Level := 40

def name (l : Level) : String :=
  if l = 50 then "CRITICAL"
  else if l = 40 then "ERROR"
  else if l = 30 then "WARNING"
  else if l = 20 then "INFO"
  else if l = 10 then "DEBUG"
  else if l = 0 then "NOTSET"
  else "Level " ++ toString l

end Level

structure Record where
  level : Level
  logger : String
  message : String
  deriving Repr, BEq, DecidableEq, Inhabited

structure Logged (α : Type) where
  records : List Record := []
  result : α
  deriving Repr, BEq, Inhabited

end FeedOutline.Log
