/-!
What a program finds around it: the variables that are set, and where users are at home.
-/
namespace FeedOutline

abbrev Variables := List (String × String)

structure Environment where
  vars : Variables := []
  /-- The home that the system knows for the user who runs the program. -/
  ownHome : Option String := none
  /-- The homes of users by their names. -/
  users : List (String × String) := []
  deriving Repr, BEq, DecidableEq, Inhabited

namespace Environment

def get? (e : Environment) (name : String) : Option String :=
  e.vars.lookup name

/-- A variable keeps its place if it is set already. -/
def set (e : Environment) (name value : String) : Environment :=
  { e with vars :=
      if e.vars.any (·.1 == name) then
        e.vars.map fun v => if v.1 == name then (name, value) else v
      else e.vars ++ [(name, value)] }

def unset (e : Environment) (name : String) : Environment :=
  { e with vars := e.vars.filter (·.1 != name) }

/-- The home of the user with that name; the empty name is the one who runs the program. -/
def home? (e : Environment) (user : String) : Option String :=
  if user.isEmpty then (e.get? "HOME").or e.ownHome else e.users.lookup user

end Environment

end FeedOutline
