import FeedOutline.RuleTable

/-!
The titles of feeds as the host of the rules keeps them.
-/
namespace FeedOutline

/-- Feeds with their titles, in the order in which they came, and how often a title was set. -/
structure Store where
  feeds : List (String × Option String) := []
  titleUpdates : Nat := 0
  deriving Repr, BEq, DecidableEq, Inhabited

namespace Store

def feed? (s : Store) (url : String) : Option (Option String) :=
  s.feeds.lookup url

/-- A feed keeps its place; a new one comes last. -/
def putTitle (url : String) (title : Option String) (feeds : List (String × Option String)) :
    List (String × Option String) :=
  upsert url (fun _ => title) feeds

def setTitle (s : Store) (url : String) (title : Option String) : Store :=
  ⟨putTitle url title s.feeds, s.titleUpdates + 1⟩

def takeTitle (taken : Store × Nat) (wanted : String × String) : Store × Nat :=
  if taken.1.feed? wanted.1 = some (some wanted.2) then taken
  else (taken.1.setTitle wanted.1 (some wanted.2), taken.2 + 1)

def takeTitles (s : Store) (wanted : RuleTable.Titles) : Store × Nat :=
  wanted.foldl takeTitle (s, 0)

def exportTitles (s : Store) (t : RuleTable) : Store :=
  (s.takeTitles t.titles).1

def exportCount (s : Store) (t : RuleTable) : Nat :=
  (s.takeTitles t.titles).2

end Store

end FeedOutline
