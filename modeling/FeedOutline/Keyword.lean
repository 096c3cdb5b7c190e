/-!
The metadata keywords that a heading can begin with, in the order in which they are recognised.
-/
namespace FeedOutline

inductive Keyword where
  | feedTitle
  | feedUrl
  | feedAuthor
  | entryTitle
  | entryLink
  | entryContentType
  | entryEnclosure
  deriving Repr, BEq, DecidableEq, Inhabited

namespace Keyword

def all : List Keyword :=
  [feedTitle, feedUrl, feedAuthor, entryTitle, entryLink, entryContentType, entryEnclosure]

def name : Keyword → String
  | feedTitle => "feed-title"
  | feedUrl => "feed-url"
  | feedAuthor => "feed-author"
  | entryTitle => "entry-title"
  | entryLink => "entry-link"
  | entryContentType => "entry-content-type"
  | entryEnclosure => "entry-enclosure"

def ofName? (s : String) : Option Keyword :=
  all.find? (·.name == s)

def isMultiValued : Keyword → Bool
  | feedAuthor | entryEnclosure => true
  | _ => false

end Keyword

end FeedOutline
