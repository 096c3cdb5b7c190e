import FeedOutline.Markup.Writer
import FeedOutline.RuleTable
import FeedOutline.Text.Split

/-!
Writing the subscriptions of a rule table as a list for other readers.
-/
namespace FeedOutline.Opml

open Markup (Name Node)

def tagsByFeed (t : RuleTable) : List (String × TagSet) :=
  t.subscriptionRules.foldl (fun feeds r =>
    upsert r.feedUrl (fun tags => (tags.getD .empty).union r.addTags) feeds) []

/-- One feed. Without a title its address stands for it. -/
def feedNode (url : String) (title : Option String) (tags : TagSet) : Node :=
  let shown := title.getD url
  let category := if tags.isEmpty then [] else [("category", Text.joined "," tags.toList)]
  .element (.plain "outline")
    (([("type", "rss"), ("text", shown), ("title", shown), ("xmlUrl", url)] ++ category).map
      fun a => (Name.plain a.1, a.2)) []

def feedNodes (t : RuleTable) : List Node :=
  let titles := t.titles
  (tagsByFeed t).map fun (url, tags) => feedNode url (titles.lookup url) tags

def rootNode (t : RuleTable) (title : String) : Node :=
  let el (name : String) (children : List Node) : Node := .element (.plain name) [] children
  .element (.plain "opml") [(.plain "version", "2.0")]
    [el "head" [el "title" (if title.isEmpty then [] else [.text title])], el "body" (feedNodes t)]

def defaultTitle : String :=
  "orgfeed subscriptions"

def ofTable (t : RuleTable) (title : String) : String :=
  Markup.document (rootNode t title)

end FeedOutline.Opml
