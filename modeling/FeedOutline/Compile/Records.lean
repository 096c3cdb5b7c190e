import FeedOutline.Compile
import FeedOutline.Log.Record
import FeedOutline.Text.Quoted

/-!
What a compilation writes to the log.
-/
namespace FeedOutline

open Disk (Pathname FileTree)
open Log (Record Logged)
open Outline (Node)
open Text

namespace Compile

def documentRecords (s : Selection) (p : Pathname) (text : String) : List Record :=
  let say (message : String) : Record := ⟨.debug, "orgfeed.outline_reader", message⟩
  [say ("Parsed " ++ toString (Outline.parse text).length ++ " top-level heading(s) from " ++ p.text),
   say ("Found " ++ toString (s.treesOf text).length ++ " heading(s) marked '" ++ s.marker ++ "' in " ++
      p.text)]

def dedupeRecords (entries : List FlatEntry) : List Record :=
  let dropped := entries.length - (dedupe entries).length
  if dropped = 0 then []
  else [⟨.debug, "orgfeed.flattener",
    "Dropped " ++ toString dropped ++ " duplicate flattened heading(s)"⟩]

def headingRecords (keywords : List Keyword) (e : FlatEntry) : List Record :=
  let say (message : String) : Record := ⟨.debug, "orgfeed.classifier", message⟩
  if (e.classify? keywords).isSome then []
  else
    (match e.keywordValue? keywords with
      | some (k, _) => [say ("Skipping '" ++ e.heading ++ "': no value after '" ++ k.name ++ ":'")]
      | none => []) ++
    [say ("Heading matches no rule shape, skipping: '" ++ e.heading ++ "'")]

def classifyRecords (s : Selection) (entries : List FlatEntry) : List Record :=
  let headings := relevant s.ignoreTag s.keywords entries
  headings.flatMap (headingRecords s.keywords) ++
    [⟨.debug, "orgfeed.classifier",
      "Classified " ++ toString (classify s.ignoreTag s.keywords entries).length ++ " of " ++
        toString headings.length ++ " relevant heading(s) (" ++ toString entries.length ++
        " flattened)"⟩]

def shownTags : List String → String
  | [] => "()"
  | [tag] => "(" ++ quoted tag ++ ",)"
  | tags => "(" ++ joined ", " (tags.map quoted) ++ ")"

def subscriptionRecords : Classified → List Record
  | .filter _ => []
  | .subscription s =>
    match SubscriptionRule.make s.url (.ofList s.tags) s.title with
    | .ok _ => []
    | .error e =>
      let title := match s.title with
        | some t => quoted t
        | none => "None"
      [⟨.debug, "orgfeed.rules", "Skipping malformed subscription entry Subscription(url=" ++
        quoted s.url ++ ", tags=" ++ shownTags s.tags ++ ", title=" ++ title ++ "): " ++ e.message⟩]

def ruleRecords (classified : List Classified) : List Record :=
  let skipped := classified.flatMap subscriptionRecords
  if skipped.isEmpty then []
  else skipped ++ [⟨.debug, "orgfeed.rules",
    "Skipped " ++ toString skipped.length ++ " malformed entr(y/ies) while building rules"⟩]

def summary (t : RuleTable) : String :=
  "Loaded " ++ toString t.ruleCount ++ " rules (" ++ toString t.keywordRules.length ++ " keyword, " ++
    toString t.subscriptionRules.length ++ " subscription)"

def tableRecords (s : Selection) (documents : Nat) (trees : List Node) : List Record :=
  let flat := trees.flatMap flatten
  let entries := s.entriesOf trees
  dedupeRecords flat ++ dedupeRecords (cleanup s.marker (flattenAll trees)) ++
    classifyRecords s entries ++ ruleRecords (classify s.ignoreTag s.keywords entries) ++
    [⟨.info, "orgfeed.compiler", summary (s.tableOf entries) ++ " from " ++ toString documents ++
      " outline file(s)"⟩]

/-- The documents up to the first that cannot be read. -/
def readable (files : FileTree) : List Pathname → List (Pathname × String)
  | [] => []
  | p :: ps =>
    match readDocument files p with
    | .ok text => (p, text) :: readable files ps
    | .error _ => []

def records (s : Selection) (env : Environment) (files : FileTree) (documents : List String) :
    List Record :=
  match expandAll env documents with
  | .error _ => []
  | .ok paths =>
    match paths.forM (checkThere files) with
    | .error _ => []
    | .ok _ =>
      let texts := readable files paths
      texts.flatMap (fun x => documentRecords s x.1 x.2) ++
        if texts.length = paths.length then
          tableRecords s documents.length (texts.flatMap fun x => s.treesOf x.2)
        else []

def logged (s : Selection) (env : Environment) (files : FileTree) (documents : List String) :
    Logged (Except CompileError RuleTable) :=
  ⟨records s env files documents, table s env files documents⟩

end Compile

end FeedOutline
