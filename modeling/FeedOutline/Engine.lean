import FeedOutline.Entry
import FeedOutline.Log.Record
import FeedOutline.Store

/-!
The rules in force while entries come in. A new table comes into force as a whole, or not at all if its
compilation fails.
-/
namespace FeedOutline

open Log (Record)

structure Engine where
  table : RuleTable := .empty
  store : Store := {}
  entries : List Entry := []
  deriving DecidableEq, Inhabited

namespace Engine

def reload (e : Engine) (compiled : Except ε RuleTable) : Except ε Engine := do
  let table ← compiled
  return { e with table, store := e.store.exportTitles table }

def exportTitles (e : Engine) : Engine :=
  { e with store := e.store.exportTitles e.table }

def setTitle (e : Engine) (url : String) (title : Option String) : Engine :=
  { e with store := e.store.setTitle url title }

/-- Tags the entry with that number; gives the tags that are new to it. -/
def notify (e : Engine) (i : Nat) : Engine × TagSet :=
  match e.entries[i]? with
  | none => (e, .empty)
  | some entry =>
    let tagging := entry.apply e.table
    ({ e with entries := e.entries.set i tagging.entry }, tagging.added)

def exportRecords (s : Store) (t : RuleTable) : List Record :=
  let count := s.exportCount t
  if count = 0 then []
  else [⟨.debug, "orgfeed.feed_engine", "Exported " ++ toString count ++ " feed title(s)"⟩]

def startRecord (t : RuleTable) : Record :=
  ⟨.info, "orgfeed.feed_engine", "Feed engine starting with " ++ toString t.ruleCount ++
    " rules for " ++ toString t.feedUrls.length ++ " feed(s)"⟩

end Engine

end FeedOutline
