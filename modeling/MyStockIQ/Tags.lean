import MyStockIQ.Prediction
import Mathlib.Data.List.Basic
/-!
# Tags in a text (`lib/shared_methods.rb`)

`$ticker` and `@username` become links, and what they name becomes a target of
the text. A word is looked up as it is, then without its last character, which
may be punctuation.
-/

open SharedStore

namespace MyStockIQ

/-- `split` -/
def words (content : String) : List String :=
  ((content.toList.splitOnP isSpace).filter (· ≠ [])).map String.ofList

/-- `word[0..word.length-2]`, which is the whole of a word of one letter. -/
def withoutLast (word : String) : String :=
  if word.toList.length ≤ 1 then word else String.ofList word.toList.dropLast

/-- One kind of tag: its sign, the path of its links, and how what it names is found. -/
structure TagKind where
  sign : String
  path : String
  type : ClassName
  query : String → Query
  find : Db → String → Option Nat

def stockTag : TagKind where
  sign := "$"
  path := "/stocks/"
  type := .stock
  query := .stockTicker
  find db name := (db.stockTicker name).map (·.id)

def userTag : TagKind where
  sign := "@"
  path := "/users/"
  type := .user
  query := .userNamed
  find db name := (db.userNamed name).map (·.id)

def TagKind.link (kind : TagKind) (name word : String) : String :=
  "<a href = \"" ++ kind.path ++ name ++ "/\"> " ++ kind.sign ++ word ++ " </a>"

/-- `exists?`, then `find_by`, whose answer may be `nil` by then. -/
def TagKind.lookup (kind : TagKind) (name : String) : Request (Option (Option Ref)) := do
  let known ← select (kind.query name) fun db => (kind.find db name).isSome
  if known then
    let id ← select (kind.query name) (kind.find · name)
    return some (id.map (⟨kind.type, ·⟩))
  else return none

/-- A word after its sign, and what it targets. -/
def TagKind.tag (kind : TagKind) (word : String) : Request (String × List (Option Ref)) := do
  let whole ← kind.lookup word
  match whole with
  | some tag => return (kind.link word word, [tag])
  | none =>
    let short ← kind.lookup (withoutLast word)
    match short with
    | some tag => return (kind.link (withoutLast word) word, [tag])
    | none => return (kind.sign ++ word, [])

def tagWord (word : String) : Request (String × List (Option Ref)) :=
  match word.toList with
  | '$' :: rest => stockTag.tag (String.ofList rest)
  | '@' :: rest => userTag.tag (String.ofList rest)
  | _ => .ret (word, [])

def tagWords : List String → Request (List String × List (Option Ref))
  | [] => .ret ([], [])
  | word :: rest => do
    let (tagged, tags) ← tagWord word
    let (taggedRest, tagsRest) ← tagWords rest
    return (tagged :: taggedRest, tags ++ tagsRest)

/-- `add_tags`: saves the Tag of the text, and returns its id and the targets. -/
def addTags (content : Option String) (ticker_symbol : String) (tagable_type : ClassName) (tagable_id : Option Nat) :
    Request (Nat × List (Option Ref)) := do
  let content ← orNil content "split"
  let (tagged_words, tags) ← tagWords (("$" ++ ticker_symbol) :: words content)
  let tag : Tag := ⟨0, String.intercalate " " tagged_words, tagable_type, tagable_id⟩
  let id ← .step (.insertTag tag) fun db => .ret db.tag_seq
  return (id, tags)

/-- `tags.each {|tag| ..streams.create(..)}` -/
def targetTags (streamable : Ref) (tags : List (Option Ref)) : Request Unit :=
  Prog.each (fun tag => do
    let targetable ← orNil tag "id"
    let _ ← Stream.save ⟨streamable, targetable⟩
    return ()) tags

end MyStockIQ
