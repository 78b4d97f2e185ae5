import MyStockIQ.Saving
import MyStockIQ.Scraper
import MyStockIQ.Sessions
import MyStockIQ.SharedStore.Part
import Mathlib.Data.List.DropRight
/-!
# Comments and replies (`app/controllers/comments_controller.rb`, `replies_controller.rb`)

The board is the tables of `Db` with those of the comments, the replies and the
news. A post comes in by two ways: `create` builds it through the current user,
tags it, and gives it a popularity and streams; `comments#post` and
`replies#new` save what the form says and do no more.
-/

open SharedStore Prog

namespace MyStockIQ.Posts

structure Comment where
  id : Nat
  user_id : Int
  content : String
  deriving DecidableEq

structure Reply where
  id : Nat
  user_id : Int
  repliable_id : Int
  repliable_type : String
  content : String
  deriving DecidableEq

structure Newsarticle extends Scraper.NewsHash where
  id : Nat
  deriving DecidableEq

/-- `remember_digest` is the column of `users`, by the id of the user. -/
structure Board extends Db where
  remember_digest : Nat → Option String
  comments : List Comment
  replies : List Reply
  newsarticles : List Newsarticle
  comment_seq : Nat
  reply_seq : Nat
  newsarticle_seq : Nat

/-! ## Statements -/

/-- The last of them is one on the tables of `Db`. -/
inductive Stmt where
  | select (query : Query)
  | selectRow (row : Ref)
  | insertComment (row : Comment)
  | insertReply (row : Reply)
  | selectNewsarticle (google_news_id : Option Scraper.Str)
  | insertNewsarticles (rows : List Scraper.NewsHash)
  | base (stmt : MyStockIQ.Stmt)

def Board.exec (board : Board) : Stmt → Board
  | .select _ => board
  | .selectRow _ => board
  | .insertComment row =>
    { board with
      comments := board.comments ++ [{ row with id := board.comment_seq }]
      comment_seq := board.comment_seq + 1 }
  | .insertReply row =>
    { board with
      replies := board.replies ++ [{ row with id := board.reply_seq }]
      reply_seq := board.reply_seq + 1 }
  | .selectNewsarticle _ => board
  | .insertNewsarticles rows =>
    { board with
      newsarticles := board.newsarticles ++ rows.zipIdx.map fun row => ⟨row.1, board.newsarticle_seq + row.2⟩
      newsarticle_seq := board.newsarticle_seq + rows.length }
  | .base stmt => { board with toDb := board.toDb.exec stmt }

inductive Error where
  | base (error : MyStockIQ.Error)
  /-- No class has this name. -/
  | nameError (name : String)
  /-- A number is too large for its column. -/
  | rangeError
  /-- The database refuses a statement. -/
  | statementInvalid
  deriving DecidableEq

abbrev Request := Prog Stmt Board Error

/-- The tables of `Db`. -/
def Board.tables : Part Board Db where
  get board := board.toDb
  set board db := { board with toDb := db }
  get_set _ _ := rfl
  set_set _ _ _ := rfl
  set_get _ := rfl

/-- What the model of `Db` does, on the board. -/
def onDb {α : Type} (p : MyStockIQ.Request α) : Request α := p.lift Board.tables .base .base

/-- `value`, or the exception of calling `method` on `nil`. -/
def orNil {α : Type} (value : Option α) (method : String) : Request α :=
  match value with
  | some a => .ret a
  | none => .raise (.base (.noMethodError method))

/-- `current_user` -/
def currentUser (bcrypt : Sessions.BCrypt) (jar : Sessions.Jar) : Request (Option User) :=
  match jar.session_user_id, jar.signed_user_id with
  | some user_id, _ => Prog.query (.select (.user user_id)) (·.user user_id)
  | none, some user_id => do
    let (found, remember_digest) ← Prog.query (.select (.user user_id)) fun board =>
      (board.user user_id, board.remember_digest user_id)
    match found, remember_digest with
    | some user, some remember_digest =>
      if bcrypt.isPassword remember_digest (jar.remember_token.getD "") then return some user else return none
    | _, _ => return none
  | none, none => .ret none

/-! ## Saving -/

/-- What is assigned to an integer column: a number, or the string of a form. -/
inductive Assigned where
  | integer (value : Int)
  | form (value : Option String)

/-- The column after it is cast. -/
def Assigned.cast : Assigned → Option Int
  | integer value => some value
  | form value => SignUp.castInteger value

/-- `numericality`, which looks at what was assigned. -/
def Assigned.numeric : Assigned → Bool
  | integer _ => true
  | form value => (value.map SignUp.numeric).getD false

/-- `presence: true, length: { maximum: 5000 }` -/
def contentErrors (content : String) : List String :=
  messageIf (blank content) "Content can't be blank" ++
    messageIf (5000 < content.length) "Content is too long (maximum is 5000 characters)"

/-- An integer column of four bytes. -/
def fits (value : Int) : Bool := -2147483648 ≤ value ∧ value ≤ 2147483647

/-- A comment that is not saved yet. -/
structure NewComment where
  user_id : Assigned
  content : Option String

/-- The row of the comment, if it is valid. -/
def NewComment.valid (self : NewComment) : Option Comment :=
  match self.user_id.cast with
  | some user_id =>
    if self.user_id.numeric ∧ contentErrors (self.content.getD "") = [] then some ⟨0, user_id, self.content.getD ""⟩
    else none
  | none => none

/-- `@comment.save` on a valid comment -/
def Comment.save (self : Comment) : Request Nat :=
  if fits self.user_id then .step (.insertComment self) fun board => .ret board.comment_seq else .raise .rangeError

/-- A reply that is not saved yet. -/
structure NewReply where
  user_id : Assigned
  repliable_id : Assigned
  repliable_type : Option String
  content : Option String

/-- The row of the reply, if it is valid. -/
def NewReply.valid (self : NewReply) : Option Reply :=
  match self.user_id.cast, self.repliable_id.cast with
  | some user_id, some repliable_id =>
    if self.user_id.numeric ∧ self.repliable_id.numeric ∧ !blank (self.repliable_type.getD "") ∧
        contentErrors (self.content.getD "") = [] then
      some ⟨0, user_id, repliable_id, self.repliable_type.getD "", self.content.getD ""⟩
    else none
  | _, _ => none

/-- `@reply.save` on a valid reply -/
def Reply.save (self : Reply) : Request Nat :=
  if fits self.user_id ∧ fits self.repliable_id then .step (.insertReply self) fun board => .ret board.reply_seq
  else .raise .rangeError

/-! ## `CommentsController` -/

/-- `comment_params` -/
structure CommentParams where
  content : Option String
  user_id : Option String

def CommentsController.post (params : CommentParams) : Request MyStockIQ.Reply :=
  match NewComment.valid ⟨.form params.user_id, params.content⟩ with
  | some comment => do
    let _ ← comment.save
    return .ok
  | none => return .ok

/-- What `create` does with a valid comment. -/
def announceComment (comment : Comment) (stock : Stock) (user : User) (tag_id : Nat) (tags : List (Option Ref)) :
    Request Unit := do
  let id ← comment.save
  onDb (write (.attachTag tag_id id))
  let streamable : Ref := ⟨.comment, id⟩
  onDb (write (.insertPopularity ⟨streamable, 0⟩))
  let _ ← onDb (Stream.save ⟨streamable, ⟨.stock, stock.id⟩⟩)
  let _ ← onDb (Stream.save ⟨streamable, ⟨.user, user.id⟩⟩)
  onDb (targetTags streamable tags)

def CommentsController.create (bcrypt : Sessions.BCrypt) (jar : Sessions.Jar) (ticker_symbol : Option String)
    (params : CommentParams) : Request MyStockIQ.Reply := do
  let found ← currentUser bcrypt jar
  let stock ← onDb (select (.stockTicker (ticker_symbol.getD "")) fun db => ticker_symbol.bind db.stockTicker)
  let user ← orNil found "comments"
  let stock ← orNil stock "ticker_symbol"
  let (tag_id, tags) ← onDb (addTags params.content stock.ticker_symbol .comment none)
  -- The association writes the id of its owner over the `user_id` of the form.
  match NewComment.valid ⟨.integer user.id, params.content⟩ with
  | some comment =>
    announceComment comment stock user tag_id tags
    return .ok
  | none => return .messages (contentErrors (params.content.getD ""))

/-! ## `RepliesController` -/

/-- `reply_params` -/
structure ReplyParams where
  content : Option String
  repliable_id : Option String
  repliable_type : Option String
  user_id : Option String

def RepliesController.new (params : ReplyParams) : Request MyStockIQ.Reply :=
  let reply : NewReply :=
    { user_id := .form params.user_id
      repliable_id := .form params.repliable_id
      repliable_type := params.repliable_type
      content := params.content }
  match reply.valid with
  | some reply => do
    let _ ← reply.save
    return .ok
  | none => return .ok

def className : ClassName → String
  | .user => "User"
  | .stock => "Stock"
  | .prediction => "Prediction"
  | .predictionend => "Predictionend"
  | .comment => "Comment"
  | .newsarticle => "Newsarticle"
  | .reply => "Reply"

/-- The parts of a text between double colons. -/
def colonParts : List Char → List (List Char)
  | [] => [[]]
  | ':' :: ':' :: rest => [] :: colonParts rest
  | c :: rest =>
    match colonParts rest with
    | [] => [[c]]
    | part :: parts => (c :: part) :: parts

/-- The class of a row that replies can be left to, or that can be asked for its `streams`. As in `constantize`,
double colons at the end are dropped, and at the start they stand for `Object`, which may also be named. -/
def constantize (name : String) : Option ClassName :=
  match ((colonParts name.toList).rdropWhile (· = [])).map String.ofList with
  | [] => none
  | first :: rest =>
    match (if first = "" ∧ rest ≠ [] then rest else first :: rest).dropWhile (· = "Object") with
    | [name] => [.user, .stock, .prediction, .predictionend, .comment, .newsarticle, .reply].find? (className · = name)
    | _ => none

example : constantize "::Comment" = some .comment ∧ constantize "User::Comment" = none := by decide

/-- Whether the row is there. -/
def Board.has (board : Board) (row : Ref) : Bool :=
  match row.type with
  | .user => (board.user row.id).isSome
  | .stock => (board.stock row.id).isSome
  | .prediction => (board.prediction row.id).isSome
  | .predictionend => (board.predictionend row.id).isSome
  | .comment => board.comments.any (·.id = row.id)
  | .newsarticle => board.newsarticles.any (·.id = row.id)
  | .reply => board.replies.any (·.id = row.id)

/-- The classes that are the streamable of their streams. Those of a user or a
stock are the ones that target it, and a reply has none. -/
def streamed : ClassName → Bool
  | .prediction | .predictionend | .comment | .newsarticle => true
  | .user | .stock | .reply => false

/-- The row `repliable_type` and `repliable_id` name, if its class is one of the application. -/
def Reply.repliable (self : Reply) : Option Ref :=
  (constantize self.repliable_type).bind fun type =>
    if 0 ≤ self.repliable_id then some ⟨type, self.repliable_id.toNat⟩ else none

/-- `@reply.repliable.streams.create(..)`. Through a user or a stock the stream
has no streamable, and is not valid. -/
def targetRepliable (self : Reply) (tag : Option Ref) : Request Unit :=
  match constantize self.repliable_type with
  | none => .raise (.nameError self.repliable_type)
  | some type => do
    let found ← Prog.query (.selectRow ⟨type, self.repliable_id.toNat⟩) fun board =>
      self.repliable.filter board.has
    let repliable ← orNil found "streams"
    if type = .reply then .raise (.base (.noMethodError "streams"))
    else
      let targetable ← orNil tag "id"
      if streamed type then
        let _ ← onDb (Stream.save ⟨repliable, targetable⟩)
        return ()
      else return ()

/-- `add_tags` without a ticker symbol. -/
def addWordTags (content : String) (tagable_type : ClassName) (tagable_id : Nat) :
    MyStockIQ.Request (List (Option Ref)) := do
  let (tagged_words, tags) ← tagWords (words content)
  write (.insertTag ⟨0, String.intercalate " " tagged_words, tagable_type, some tagable_id⟩)
  return tags

/-- What `create` does with a valid reply. -/
def announceReply (reply : Reply) : Request Unit := do
  let id ← reply.save
  onDb (write (.insertPopularity ⟨⟨.reply, id⟩, 0⟩))
  let tags ← onDb (addWordTags reply.content .reply id)
  Prog.each (targetRepliable reply) tags

/-- `create`, which takes the repliable from beside the form of the reply. -/
def RepliesController.create (bcrypt : Sessions.BCrypt) (jar : Sessions.Jar) (params : ReplyParams)
    (repliable_id repliable_type : Option String) : Request MyStockIQ.Reply := do
  let found ← currentUser bcrypt jar
  let user ← orNil found "replies"
  let reply : NewReply :=
    { user_id := .integer user.id
      repliable_id := .form repliable_id
      repliable_type := repliable_type
      content := params.content }
  match reply.valid with
  | some reply =>
    announceReply reply
    return .ok
  | none => return .messages ["You have to say something to leave a reply!"]

end MyStockIQ.Posts
