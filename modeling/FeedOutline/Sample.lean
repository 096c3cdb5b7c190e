import FeedOutline.Entry
import FeedOutline.Log.Record
import FeedOutline.Yaml.Load

/-!
Sample entries from a file. Their fields may hold values of any kind, and one that is no text does no
harm until a rule looks at it.
-/
namespace FeedOutline

open Data (Value Scalar Mapping Document)
open Log (Record)
open Text

structure Sample where
  feedUrl : Value
  feedTitle : Value := .null
  feedAuthors : List Value := []
  title : Value := .null
  link : Value := .null
  contentType : Value := .null
  enclosures : List Value := []
  tags : TagSet := .empty
  /-- Whether there is a tag that is no text. -/
  hasOddTag : Bool := false
  hasTornTag : Bool := false
  deriving Inhabited

/-- Why a value cannot be used: it has no text in it, it cannot be looked into, an integer in it has too many
digits to be shown, or it has a lone surrogate and cannot be written. -/
inductive Misfit where
  | notText
  | unusable
  | unshowable
  | unwritable
  deriving Repr, BEq, DecidableEq, Inhabited

inductive SampleError where
  | notList (path : String)
  | notEntry (number : Nat) (path : String)
  | unknownFields (number : Nat) (path : String) (fields : List String)
  | misfit (m : Misfit)
  deriving Repr, BEq, DecidableEq, Inhabited

def SampleError.message : SampleError → String
  | notList path => "Entries file " ++ path ++ " must contain a list of mappings"
  | notEntry number path =>
    "Entry #" ++ toString number ++ " in " ++ path ++ " must be a mapping with a feed_url"
  | unknownFields number path fields =>
    "Entry #" ++ toString number ++ " in " ++ path ++ " has unknown field(s): " ++
      joined ", " (TagSet.ofList fields).toList
  | misfit _ => "a value of the wrong kind"

namespace Sample

def fieldNames : List String :=
  ["feed_url", "feed_title", "feed_authors", "title", "link", "content_type", "enclosures", "tags"]

/-- The items of a value: those of a list, the keys of a mapping, the characters of a text. An empty
value has none. -/
def itemsOf (v : Value) : Except Misfit (List Value) :=
  if v.isEmpty then .ok []
  else match v with
    | .list items => .ok items
    | .map entries => .ok (entries.map fun e => .scalar e.1)
    | .set items => .ok (items.map .scalar)
    | .pair a b => .ok [a, b]
    | .scalar (.text s) => .ok (s.toList.map fun c => .text (String.singleton c))
    | .scalar (.torn t) => .ok (t.marks.map fun m => .ofText (.ofMarks [m]))
    | .scalar (.bytes bs) => .ok (bs.map fun b => .int b.toNat)
    | .scalar _ | .part _ _ => .error .unusable

def isFixed : Value → Bool
  | .scalar _ => true
  | .pair a b => isFixed a && isFixed b
  | _ => false

def isTorn : Value → Bool
  | .scalar (.torn _) => true
  | _ => false

def get (m : Mapping) (key : String) : Value :=
  (m.get? key).getD .null

def ofMapping (m : Mapping) : Except Misfit Sample := do
  let tags ← itemsOf (get m "tags")
  if !tags.all isFixed then .error .unusable
  else
    let feedAuthors ← itemsOf (get m "feed_authors")
    let enclosures ← itemsOf (get m "enclosures")
    return {
      feedUrl := get m "feed_url"
      feedTitle := get m "feed_title"
      feedAuthors
      title := get m "title"
      link := get m "link"
      contentType := get m "content_type"
      enclosures
      tags := .ofList (tags.filterMap Value.text?)
      hasOddTag := tags.any (·.anyText?.isNone)
      hasTornTag := tags.any isTorn }

def unknownKeys (m : Mapping) : List Scalar :=
  (m.map (·.1)).filter fun k =>
    match k with
    | .text s => !fieldNames.contains s
    | _ => true

def textKey? : Scalar → Option String
  | .text s => some s
  | .torn t => some t.shown
  | _ => none

def ofValue (number : Nat) (path : String) (v : Value) : Except SampleError Sample :=
  match v with
  | .map m =>
    if (get m "feed_url").isEmpty then .error (.notEntry number path)
    else
      let unknown := unknownKeys m
      if unknown.isEmpty then (ofMapping m).mapError .misfit
      else
        let names := unknown.filterMap textKey?
        if names.length = unknown.length then .error (.unknownFields number path names)
        else .error (.misfit .unusable)
  | _ => .error (.notEntry number path)

def ofItems (path : String) (number : Nat) : List Value → Except SampleError (List Sample)
  | [] => .ok []
  | v :: vs => do return (← ofValue number path v) :: (← ofItems path (number + 1) vs)

def shownFields : List String :=
  ["title", "link", "feed_url"]

/-- An item of a document's list. Of the fields that are never shown, nothing below their items is looked
at. -/
def itemOf (d : Document) (v : Value) : Value :=
  match d.view v with
  | .map entries => .map (entries.map fun (k, v) =>
      (k, if shownFields.any (k == .text ·) then d.unfold v else d.expand 3 v))
  | v => v

def listOf (path : String) (d : Document) : Except SampleError (List Sample) :=
  let v := d.view d.value
  if v.isEmpty then .ok []
  else match v with
    | .list items => ofItems path 1 (items.map (itemOf d))
    | _ => .error (.notList path)

def valuesFor (s : Sample) (k : Keyword) : List Value :=
  let values := match k with
    | .feedTitle => [s.feedTitle]
    | .feedUrl => [s.feedUrl]
    | .feedAuthor => s.feedAuthors
    | .entryTitle => [s.title]
    | .entryLink => [s.link]
    | .entryContentType => [s.contentType]
    | .entryEnclosure => s.enclosures
  values.filter (!·.isEmpty)

def holds (part : String) : Value → Except Misfit Bool
  | .scalar (.text s) => .ok (containsString part s)
  | .scalar (.torn t) => .ok (t.contains part)
  | .list items => .ok (items.any fun v => v.text? == some part)
  | .map entries => .ok (entries.any fun e => e.1 == .text part)
  | .set items => .ok (items.contains (.text part))
  | .pair a b => .ok (a.text? == some part || b.text? == some part)
  | .part _ _ => .ok false
  | .scalar _ => .error .unusable

def begins (part : String) : Value → Except Misfit Bool
  | .scalar (.text s) => .ok (startsWith part s)
  | .scalar (.torn t) => .ok (t.startsWith part)
  | .scalar (.bytes _) => .error .unusable
  | _ => .error .notText

def anyValue (test : Value → Except Misfit Bool) : List Value → Except Misfit Bool
  | [] => .ok false
  | v :: vs => do if ← test v then return true else anyValue test vs

def matchesRule (s : Sample) (r : KeywordRule) : Except Misfit Bool :=
  anyValue (if r.field.isMultiValued then holds r.value else begins r.value) (s.valuesFor r.field)

def orElse (a b : Value) : Value :=
  if a.isEmpty then b else a

def mark (s : Sample) : Value :=
  orElse s.link s.title

def addTags (s : Sample) (tags : TagSet) : Sample :=
  { s with tags := s.tags.union tags }

structure Tagging where
  sample : Sample
  matched : List KeywordRule := []
  misfit : Option Misfit := none
  deriving Inhabited

def Tagging.step (t : Tagging) (r : KeywordRule) : Tagging :=
  match t.misfit with
  | some _ => t
  | none =>
    match t.sample.matchesRule r with
    | .error m => { t with misfit := some m }
    | .ok true =>
      if t.sample.mark.isShowable then
        { t with sample := t.sample.addTags r.addTags, matched := t.matched ++ [r] }
      else { t with misfit := some .unshowable }
    | .ok false => t

def subscriptions (t : RuleTable) : Value → Except Misfit (List SubscriptionRule)
  | .scalar (.text url) => .ok (t.subscriptionsFor url)
  | .scalar _ => .ok []
  | _ => .error .unusable

def apply (s : Sample) (table : RuleTable) : Tagging :=
  let t := table.keywordRules.foldl Tagging.step ⟨s, [], none⟩
  if t.misfit.isSome then t
  else match subscriptions table s.feedUrl with
    | .error m => { t with misfit := some m }
    | .ok rules => { t with sample := rules.foldl (fun s r => s.addTags r.addTags) t.sample }

def matchRecords (t : Tagging) : List Record :=
  t.matched.map fun r =>
    ⟨.debug, "orgfeed.rules", "Entry " ++ t.sample.mark.shownInside ++ " matched " ++ r.field.name ++
      "=" ++ quoted r.value ++ ", tags=" ++ quotedList r.addTags.toList⟩

def label (s : Sample) : Value :=
  orElse s.title (orElse s.link s.feedUrl)

end Sample

end FeedOutline
