import MyStockIQ.Feed
import MyStockIQ.SignUp
import MyStockIQ.SharedStore.History
/-!
# Following (`app/models/user.rb`, `app/controllers/relationships_controller.rb`)

A row of `relationships` says that a user follows a user or a stock. `follow`
inserts one without looking whether there is one, `unfollow` destroys one, and
the followers of a user are read off the id alone, whatever it is an id of. So
the rows are a set as long as nobody follows twice, and no stock that is
followed has the id of a user (`orderly_setLike`). What a user did last is read
off the requests: their sessions, their forms, and the users and stocks there are.
-/

open SharedStore Prog

namespace MyStockIQ.Following

/-- The tables. -/
structure Graph where
  users : List User
  stocks : List Stock
  relationships : List Relationship
  deriving DecidableEq

/-! ## Statements -/

inductive Query where
  | user (id : Nat)
  | target (type : ClassName) (id : Option Int)
  | stockTicker (ticker_symbol : String)
  | relationship (follower_id : Nat) (type : Option ClassName) (id : Option Int)

inductive Stmt where
  | select (query : Query)
  | insert (row : Relationship)
  | destroy (row : Relationship)

def Graph.exec (graph : Graph) : Stmt → Graph
  | .select _ => graph
  | .insert row => { graph with relationships := graph.relationships ++ [row] }
  | .destroy row => { graph with relationships := graph.relationships.erase row }

inductive Error where
  | noMethodError (method : String)
  /-- The mail server does not take the mail. -/
  | notDelivered
  deriving DecidableEq

abbrev Request := Prog Stmt Graph Error

def select {α : Type} (query : Query) (answer : Graph → α) : Request α := Prog.query (.select query) answer

def write (stmt : Stmt) : Request Unit := Prog.exec stmt

/-- `value`, or the exception of calling `method` on `nil`. -/
def orNil {α : Type} (value : Option α) (method : String) : Request α :=
  match value with
  | some a => .ret a
  | none => .raise (.noMethodError method)

/-- `current_user` -/
def Graph.currentUser (graph : Graph) (session : Option Nat) : Option User :=
  session.bind fun id => graph.users.find? (·.id = id)

def currentUser (session : Option Nat) : Request (Option User) :=
  match session with
  | none => .ret none
  | some id => select (.user id) (·.currentUser (some id))

/-! ## `User` and `Stock` -/

/-- `follow` -/
def follow (self : User) (object : Ref) : Request Unit := write (.insert ⟨self.id, object⟩)

/-- `following?` -/
def Graph.following (graph : Graph) (self : User) (object : Ref) : Bool :=
  graph.relationships.contains ⟨self.id, object⟩

/-- `unfollow` -/
def unfollow (self : User) (object : Ref) : Request Unit := do
  let found ← select (.relationship self.id (some object.type) (some object.id)) (·.following self object)
  if found then write (.destroy ⟨self.id, object⟩) else .raise (.noMethodError "destroy")

/-- `User#followers`: for each relationship to something with this id, the users found. -/
def Graph.userFollowers (graph : Graph) (id : Nat) : List (List User) :=
  (graph.relationships.filter (·.followed.id = id)).map fun relationship =>
    (graph.users.find? (·.id = relationship.follower_id)).toList

/-- `Stock#followers` -/
def Graph.stockFollowers (graph : Graph) (id : Nat) : List Relationship :=
  graph.relationships.filter (·.followed = ⟨.stock, id⟩)

/-! ## Controllers -/

/-- The class a form names, of those that can be followed. -/
def followedType : Option String → Option ClassName
  | some "User" => some .user
  | some "Stock" => some .stock
  | _ => none

/-- `User.find_by(id: ..)` or `Stock.find_by(id: ..)` -/
def Graph.target (graph : Graph) (type : ClassName) (id : Option Int) : Option Ref :=
  match type with
  | .user => (graph.users.find? fun user => some (user.id : Int) = id).map fun user => ⟨.user, user.id⟩
  | .stock => (graph.stocks.find? fun stock => some (stock.id : Int) = id).map fun stock => ⟨.stock, stock.id⟩
  | _ => none

/-- The form of `shared/_follow` or `shared/_unfollow`. -/
structure FollowParams where
  followed_type : Option String
  followed_id : Option String

/-- `@target` -/
def findTarget (type : Option ClassName) (id : Option Int) : Request (Option Ref) :=
  match type with
  | some type => select (.target type id) (·.target type id)
  | none => .ret none

/-- `UserMailer.follow_mailer(current_user.id, @target.id).deliver_now`, if it is a user who is followed. -/
def mailFollowed (type : Option ClassName) (session : Option Nat) (target : Option Ref) (delivered : Bool) :
    Request Unit :=
  if type = some .user then do
    let found ← currentUser session
    let _ ← orNil found "id"
    let _ ← orNil target "id"
    if delivered then return () else .raise .notDelivered
  else .ret ()

/-- `create`, where `delivered` says whether the mail is taken. -/
def RelationshipsController.create (session : Option Nat) (delivered : Bool) (params : FollowParams) :
    Request Unit := do
  let type := followedType params.followed_type
  let target ← findTarget type (SignUp.castInteger params.followed_id)
  mailFollowed type session target delivered
  let found ← currentUser session
  let current_user ← orNil found "follow"
  let target ← orNil target "id"
  follow current_user target

def RelationshipsController.destroy (session : Option Nat) (params : FollowParams) : Request Unit := do
  let type := followedType params.followed_type
  let id := SignUp.castInteger params.followed_id
  let found ← currentUser session
  let current_user ← orNil found "active_relationships"
  let found ← select (.relationship current_user.id type id) fun graph =>
    graph.relationships.find? fun row =>
      row.follower_id = current_user.id ∧ some row.followed.type = type ∧ some (row.followed.id : Int) = id
  let relationship ← orNil found "followed_type"
  let target ← findTarget (some relationship.followed.type) (some relationship.followed.id)
  let target ← orNil target "id"
  unfollow current_user target

/-- One parameter of the form of `WelcomeController#create`. -/
def welcomeParam (session : Option Nat) (param : String × Option String) : Request Unit :=
  if param.2 = some "stock" then do
    let stock ← select (.stockTicker param.1) fun graph => graph.stocks.find? (·.ticker_symbol = param.1)
    let found ← currentUser session
    let current_user ← orNil found "following?"
    let stock ← orNil stock "id"
    let object : Ref := ⟨.stock, stock.id⟩
    let following ← select (.relationship current_user.id (some .stock) (some stock.id)) (·.following current_user object)
    if following then return () else follow current_user object
  else .ret ()

def WelcomeController.create (session : Option Nat) (params : List (String × Option String)) : Request Unit :=
  Prog.each (welcomeParam session) params

inductive Visit where
  | create (session : Option Nat) (delivered : Bool) (params : FollowParams)
  | destroy (session : Option Nat) (params : FollowParams)
  | welcome (session : Option Nat) (params : List (String × Option String))

def Visit.request : Visit → Request Unit
  | create session delivered params => RelationshipsController.create session delivered params
  | destroy session params => RelationshipsController.destroy session params
  | welcome session params => WelcomeController.create session params

/-- The graph a visit leaves, also if it ends with an exception. -/
def Visit.run (visit : Visit) (graph : Graph) : Graph := (visit.request.run Graph.exec graph).2

/-! ## The acts of the users -/

/-- What a user does: the row says who, and to whom or what. -/
inductive Act where
  | follow (row : Relationship)
  | unfollow (row : Relationship)
  deriving DecidableEq

/-- The act is about this user and this user or stock. -/
def Act.Of (row : Relationship) : Act → Prop
  | follow acted => acted = row
  | unfollow acted => acted = row

/-- The target a form names. -/
def Graph.named (graph : Graph) (params : FollowParams) : Option Ref :=
  (followedType params.followed_type).bind (graph.target · (SignUp.castInteger params.followed_id))

/-- The stocks of the welcome form are followed one by one, as far as the first that there is not. -/
def welcomeActs (graph : Graph) (session : Option Nat) : List (String × Option String) → List Act
  | [] => []
  | param :: params =>
    if param.2 = some "stock" then
      match graph.currentUser session, graph.stocks.find? (·.ticker_symbol = param.1) with
      | some user, some stock => .follow ⟨user.id, ⟨.stock, stock.id⟩⟩ :: welcomeActs graph session params
      | _, _ => []
    else welcomeActs graph session params

/-- What the user of a session does with a visit, by its form and the tables of users and stocks. A user who
gets no mail is not followed. -/
def Visit.acts (graph : Graph) : Visit → List Act
  | create session delivered params =>
    match graph.currentUser session, graph.named params with
    | some user, some target =>
      if followedType params.followed_type = some .user ∧ delivered = false then [] else [.follow ⟨user.id, target⟩]
    | _, _ => []
  | destroy session params =>
    match graph.currentUser session, graph.named params with
    | some user, some target => [.unfollow ⟨user.id, target⟩]
    | _, _ => []
  | welcome session params => welcomeActs graph session params

/-- The graph some visits leave. -/
def after (start : Graph) (visits : List Visit) : Graph := visits.foldl (fun graph visit => visit.run graph) start

/-- All acts of some visits, the oldest first. No visit changes the users or the stocks. -/
def actsOf (start : Graph) (visits : List Visit) : List Act := visits.flatMap (Visit.acts start)

/-! ## A set of rows -/

section
variable {graph : Graph} {log : List Act} {row : Relationship}

/-- No user has the id of the stock that is followed. -/
def Graph.Clear (graph : Graph) (object : Ref) : Prop :=
  object.type = .user ∨ object.type = .stock ∧ ∀ user ∈ graph.users, user.id ≠ object.id

/-- Each row is there once, if the last act about it was to follow. -/
structure Inv (log : List Act) (graph : Graph) : Prop where
  nodup : graph.relationships.Nodup
  last : ∀ row, row ∈ graph.relationships ↔ Last (Act.Of row) log (.follow row)
  clear : ∀ row ∈ graph.relationships, graph.Clear row.followed

/-- What an act does to a set of rows. -/
def Graph.act (graph : Graph) : Act → Graph
  | .follow row =>
    { graph with
      relationships := if row ∈ graph.relationships then graph.relationships else graph.relationships ++ [row] }
  | .unfollow row => { graph with relationships := graph.relationships.erase row }

@[simp] theorem act_users (act : Act) : (graph.act act).users = graph.users := by cases act <;> rfl

@[simp] theorem act_stocks (act : Act) : (graph.act act).stocks = graph.stocks := by cases act <;> rfl

theorem mem_followed {other : Relationship} :
    other ∈ (graph.act (.follow row)).relationships ↔ other ∈ graph.relationships ∨ other = row := by
  unfold Graph.act
  by_cases hrow : row ∈ graph.relationships
  · simp only [if_pos hrow]
    constructor
    · exact .inl
    · rintro (h | rfl)
      · exact h
      · exact hrow
  · simp [if_neg hrow]

theorem Inv.followed (h : Inv log graph) (hclear : graph.Clear row.followed) :
    Inv (log ++ [.follow row]) (graph.act (.follow row)) := by
  refine ⟨?_, ?_, ?_⟩
  · unfold Graph.act
    by_cases hrow : row ∈ graph.relationships
    · simpa only [if_pos hrow] using h.nodup
    · simp only [if_neg hrow]
      exact h.nodup.append (by simp) (by simpa using hrow)
  · intro other
    rw [mem_followed]
    by_cases hother : row = other
    · subst hother
      have habout : (Act.follow row).Of row := rfl
      exact iff_of_true (.inr rfl) ((last_append_of habout).2 rfl)
    · have hnot : ¬(Act.follow row).Of other := hother
      rw [or_iff_left fun heq => hother heq.symm, h.last other]
      exact (last_append_of_not hnot).symm
  · intro other hother
    rcases mem_followed.1 hother with hother | rfl
    · exact h.clear other hother
    · exact hclear

theorem Inv.unfollowed (h : Inv log graph) (row : Relationship) :
    Inv (log ++ [.unfollow row]) (graph.act (.unfollow row)) := by
  refine ⟨h.nodup.erase row, ?_, ?_⟩
  · intro other
    unfold Graph.act
    rw [h.nodup.mem_erase_iff]
    by_cases hother : row = other
    · subst hother
      have habout : (Act.unfollow row).Of row := rfl
      refine iff_of_false (fun hmem => hmem.1 rfl) fun hlast => ?_
      cases (last_append_of habout).1 hlast
    · have hnot : ¬(Act.unfollow row).Of other := hother
      rw [and_iff_right fun heq => hother heq.symm, h.last other]
      exact (last_append_of_not hnot).symm
  · intro other hother
    exact h.clear other (List.mem_of_mem_erase hother)

/-- Acts keep the rows a set if no stock with the id of a user is followed. -/
theorem Inv.acts (acts : List Act) (h : Inv log graph) (hclear : ∀ row, .follow row ∈ acts → graph.Clear row.followed) :
    Inv (log ++ acts) (acts.foldl Graph.act graph) := by
  induction acts generalizing log graph with
  | nil => simpa using h
  | cons act acts ih =>
    have hact : Inv (log ++ [act]) (graph.act act) := by
      cases act with
      | follow row => exact h.followed (hclear row (by simp))
      | unfollow row => exact h.unfollowed row
    have hrest := ih hact fun row hrow => by
      unfold Graph.Clear
      rw [act_users]
      exact hclear row (List.mem_cons_of_mem act hrow)
    simpa using hrest

end

/-! ## What a visit does -/

section
variable (graph : Graph)

theorem run_currentUser (session : Option Nat) :
    (currentUser session).run Graph.exec graph = (.ok (graph.currentUser session), graph) := by
  cases session with
  | none => rfl
  | some id => rfl

theorem run_findTarget (type : Option ClassName) (id : Option Int) :
    (findTarget type id).run Graph.exec graph = (.ok (type.bind (graph.target · id)), graph) := by
  cases type with
  | none => rfl
  | some type => rfl

theorem run_findNamed (params : FollowParams) :
    (findTarget (followedType params.followed_type) (SignUp.castInteger params.followed_id)).run Graph.exec graph =
      (.ok (graph.named params), graph) := run_findTarget graph _ _

/-- `create` inserts a row if there are a user and a target, and the mail is taken. -/
theorem run_create (session : Option Nat) (delivered : Bool) (params : FollowParams) :
    (Visit.create session delivered params).run graph =
      match graph.currentUser session, graph.named params with
      | some user, some target =>
        if followedType params.followed_type = some .user ∧ delivered = false then graph
        else { graph with relationships := graph.relationships ++ [⟨user.id, target⟩] }
      | _, _ => graph := by
  simp only [Visit.run, Visit.request, RelationshipsController.create]
  rw [bind_eq, run_bind_ok Graph.exec (run_findNamed graph params)]
  unfold mailFollowed
  by_cases htype : followedType params.followed_type = some .user
  · simp only [if_pos htype, bind_eq, bind_assoc]
    rw [run_bind_ok Graph.exec (run_currentUser graph session)]
    cases huser : graph.currentUser session with
    | none => rfl
    | some user =>
      cases graph.named params with
      | none => rfl
      | some target =>
        cases delivered with
        | false => simp [orNil, htype]
        | true =>
          simp only [orNil, ret_bind, if_true, Bool.true_eq_false, and_false, if_false, pure_eq]
          rw [run_bind_ok Graph.exec (run_currentUser graph session), huser]
          rfl
  · simp only [if_neg htype, bind_eq, ret_bind]
    rw [run_bind_ok Graph.exec (run_currentUser graph session)]
    cases graph.currentUser session with
    | none => rfl
    | some user =>
      cases graph.named params with
      | none => rfl
      | some target =>
        simp only [htype, false_and, if_false]
        rfl

/-- What is found is of the class that was asked for, and has the id. -/
theorem target_eq {type : ClassName} {id : Nat} {target : Ref} (h : graph.target type (some (id : Int)) = some target) :
    target = ⟨type, id⟩ := by
  cases type with
  | user =>
    obtain ⟨user, hfound, rfl⟩ := Option.map_eq_some_iff.1 h
    have hid := List.find?_some hfound
    simp only [Option.some.injEq, decide_eq_true_eq, Int.natCast_inj] at hid
    rw [hid]
  | stock =>
    obtain ⟨stock, hfound, rfl⟩ := Option.map_eq_some_iff.1 h
    have hid := List.find?_some hfound
    simp only [Option.some.injEq, decide_eq_true_eq, Int.natCast_inj] at hid
    rw [hid]
  | _ => cases h

/-- A target is of the class and has the id that the form names. -/
theorem named_eq {params : FollowParams} {target : Ref} (h : graph.named params = some target) :
    followedType params.followed_type = some target.type ∧ SignUp.castInteger params.followed_id = some (target.id : Int) := by
  obtain ⟨type, htype, hfound⟩ := Option.bind_eq_some_iff.1 h
  rw [htype]
  cases type with
  | user =>
    obtain ⟨user, huser, rfl⟩ := Option.map_eq_some_iff.1 hfound
    exact ⟨rfl, (by simpa using List.find?_some huser : some (user.id : Int) = _).symm⟩
  | stock =>
    obtain ⟨stock, hstock, rfl⟩ := Option.map_eq_some_iff.1 hfound
    exact ⟨rfl, (by simpa using List.find?_some hstock : some (stock.id : Int) = _).symm⟩
  | _ => cases hfound

/-- `destroy` destroys the row of the user and the target, if there is one. -/
theorem run_destroy (session : Option Nat) (params : FollowParams) :
    (Visit.destroy session params).run graph =
      match graph.currentUser session, graph.named params with
      | some user, some target => graph.act (.unfollow ⟨user.id, target⟩)
      | _, _ => graph := by
  simp only [Visit.run, Visit.request, RelationshipsController.destroy]
  rw [bind_eq, run_bind_ok Graph.exec (run_currentUser graph session)]
  cases graph.currentUser session with
  | none => rfl
  | some user =>
    simp only [orNil, select, bind_eq, ret_bind, query_bind, run_step, Graph.exec]
    split
    · next relationship hfound =>
      have hrow := List.find?_some hfound
      simp only [decide_eq_true_eq] at hrow
      -- The row is of the class and the id that the form names.
      have hnamed : graph.named params = graph.target relationship.followed.type (some (relationship.followed.id : Int)) := by
        unfold Graph.named
        rw [← hrow.2.1, ← hrow.2.2, Option.bind_some]
      simp only [ret_bind]
      rw [run_bind_ok Graph.exec (run_findTarget graph _ _), Option.bind_some, hnamed]
      cases htarget : graph.target relationship.followed.type (some (relationship.followed.id : Int)) with
      | none => rfl
      | some target =>
        have heq : relationship = ⟨user.id, target⟩ := by
          rw [target_eq graph htarget, ← hrow.1]
        have hmem : (⟨user.id, target⟩ : Relationship) ∈ graph.relationships :=
          heq ▸ List.mem_of_find?_eq_some hfound
        simp [unfollow, select, write, Prog.exec, Graph.exec, Graph.following, hmem, Graph.act]
    · next hnone =>
      cases htarget : graph.named params with
      | none => rfl
      | some target =>
        -- The user has no such row.
        have hmem : (⟨user.id, target⟩ : Relationship) ∉ graph.relationships := by
          intro hmem
          have hnot := List.find?_eq_none.1 hnone _ hmem
          obtain ⟨htype, hid⟩ := named_eq graph htarget
          simp [htype, hid] at hnot
        simp [Graph.act, List.erase_of_not_mem hmem]

/-- A parameter of the welcome form raises an exception or is an act to follow a stock, if its value is stock. -/
theorem run_welcomeParam (session : Option Nat) (param : String × Option String) :
    (welcomeParam session param).run Graph.exec graph =
      if param.2 = some "stock" then
        match graph.currentUser session, graph.stocks.find? (·.ticker_symbol = param.1) with
        | none, _ => (.error (.noMethodError "following?"), graph)
        | some _, none => (.error (.noMethodError "id"), graph)
        | some user, some stock => (.ok (), graph.act (.follow ⟨user.id, ⟨.stock, stock.id⟩⟩))
      else (.ok (), graph) := by
  unfold welcomeParam
  split
  · simp only [select, bind_eq, query_bind, run_step, Graph.exec]
    rw [run_bind_ok Graph.exec (run_currentUser graph session)]
    cases graph.currentUser session with
    | none => rfl
    | some user =>
      cases hstock : graph.stocks.find? (·.ticker_symbol = param.1) with
      | none => rfl
      | some stock =>
        by_cases hmem : (⟨user.id, ⟨.stock, stock.id⟩⟩ : Relationship) ∈ graph.relationships
        · simp [orNil, Graph.exec, Graph.following, Graph.act, hmem]
        · simp [orNil, write, follow, Prog.exec, Graph.exec, Graph.following, Graph.act, hmem]
  · rfl

end

theorem welcomeActs_act (graph : Graph) (act : Act) (session : Option Nat) (params : List (String × Option String)) :
    welcomeActs (graph.act act) session params = welcomeActs graph session params := by
  induction params with
  | nil => rfl
  | cons param params ih =>
    unfold welcomeActs Graph.currentUser
    rw [act_users, act_stocks, ih]

theorem run_welcome (session : Option Nat) (params : List (String × Option String)) (graph : Graph) :
    (Visit.welcome session params).run graph = (welcomeActs graph session params).foldl Graph.act graph := by
  induction params generalizing graph with
  | nil => rfl
  | cons param params ih =>
    have hparam := run_welcomeParam graph session param
    have hrest (graph : Graph) : ((Prog.each (welcomeParam session) params).run Graph.exec graph).2 =
        (welcomeActs graph session params).foldl Graph.act graph := ih graph
    unfold welcomeActs
    simp only [Visit.run, Visit.request, WelcomeController.create, Prog.each]
    by_cases hvalue : param.2 = some "stock"
    · rw [if_pos hvalue] at hparam ⊢
      cases huser : graph.currentUser session with
      | none =>
        rw [huser] at hparam
        exact congrArg Prod.snd (run_bind_error Graph.exec hparam _)
      | some user =>
        cases hstock : graph.stocks.find? (·.ticker_symbol = param.1) with
        | none =>
          rw [huser, hstock] at hparam
          exact congrArg Prod.snd (run_bind_error Graph.exec hparam _)
        | some stock =>
          rw [huser, hstock] at hparam
          rw [run_bind_ok Graph.exec hparam, hrest, welcomeActs_act]
          rfl
    · rw [if_neg hvalue] at hparam ⊢
      rw [run_bind_ok Graph.exec hparam, hrest]

/-! ## Orderly visits -/

/-- Nobody follows again with `create`, and no stock with the id of a user is followed. -/
structure Orderly (graph : Graph) (visit : Visit) : Prop where
  clear : ∀ row, .follow row ∈ visit.acts graph → graph.Clear row.followed
  new : ∀ session delivered params, visit = .create session delivered params →
    ∀ row, .follow row ∈ visit.acts graph → row ∉ graph.relationships

/-- Each of the visits is orderly where it is made. -/
def AllOrderly : Graph → List Visit → Prop
  | _, [] => True
  | graph, visit :: visits => Orderly graph visit ∧ AllOrderly (visit.run graph) visits

/-- An orderly visit is the acts of its user. -/
theorem Orderly.run_eq {graph : Graph} {visit : Visit} (h : Orderly graph visit) :
    visit.run graph = (visit.acts graph).foldl Graph.act graph := by
  cases visit with
  | create session delivered params =>
    have hnew := h.new session delivered params rfl
    rw [run_create]
    simp only [Visit.acts] at hnew ⊢
    cases huser : graph.currentUser session with
    | none => rfl
    | some user =>
      cases htarget : graph.named params with
      | none => rfl
      | some target =>
        simp only [huser, htarget] at hnew ⊢
        by_cases hmail : followedType params.followed_type = some .user ∧ delivered = false
        · simp only [if_pos hmail, List.foldl_nil]
        · simp only [if_neg hmail, List.mem_singleton, Act.follow.injEq, forall_eq] at hnew
          simp [if_neg hmail, Graph.act, hnew]
  | destroy session params =>
    rw [run_destroy]
    simp only [Visit.acts]
    cases graph.currentUser session with
    | none => rfl
    | some user => cases graph.named params <;> rfl
  | welcome session params => exact run_welcome session params graph

/-- The acts of a visit do not depend on the relationships. -/
theorem acts_act (graph : Graph) (act : Act) (visit : Visit) : visit.acts (graph.act act) = visit.acts graph := by
  have hnamed (params : FollowParams) : (graph.act act).named params = graph.named params := by
    unfold Graph.named Graph.target
    rw [act_users, act_stocks]
  cases visit with
  | create session delivered params =>
    simp only [Visit.acts, Graph.currentUser, hnamed, act_users]
  | destroy session params =>
    simp only [Visit.acts, Graph.currentUser, hnamed, act_users]
  | welcome session params => exact welcomeActs_act graph act session params

theorem acts_foldl (acts : List Act) (graph : Graph) (visit : Visit) :
    visit.acts (acts.foldl Graph.act graph) = visit.acts graph := by
  induction acts generalizing graph with
  | nil => rfl
  | cons act acts ih => rw [List.foldl_cons, ih, acts_act]

section
variable {graph start : Graph} {log : List Act}

/-- Orderly visits keep the rows a set, of what was followed last. -/
theorem Inv.visits (h : Inv log graph) {visits : List Visit} (horderly : AllOrderly graph visits) :
    Inv (log ++ actsOf graph visits) (after graph visits) := by
  induction visits generalizing graph log with
  | nil => simpa [actsOf, after] using h
  | cons visit visits ih =>
    obtain ⟨hvisit, hvisits⟩ := horderly
    have hrun := hvisit.run_eq
    have hone : Inv (log ++ visit.acts graph) (visit.run graph) := by
      rw [hrun]
      exact h.acts _ hvisit.clear
    have hsame : actsOf (visit.run graph) visits = actsOf graph visits := by
      unfold actsOf
      rw [hrun]
      exact List.flatMap_congr fun later _ => acts_foldl _ graph later
    have hall := ih hone hvisits
    rw [hsame, List.append_assoc] at hall
    exact hall

/-- The graph is a set: a user follows what it followed last, and is counted once
among the followers of what it follows, and not among those of anything else. -/
structure SetLike (acts : List Act) (graph : Graph) : Prop where
  following : ∀ user ∈ graph.users, ∀ object, graph.following user object = true ↔
    Last (Act.Of ⟨user.id, object⟩) acts (.follow ⟨user.id, object⟩)
  userFollowers : ∀ user ∈ graph.users, ∀ followed ∈ graph.users,
    ((graph.userFollowers followed.id).flatten.map (·.id)).count user.id =
      if graph.following user ⟨.user, followed.id⟩ then 1 else 0
  stockFollowers : ∀ user ∈ graph.users, ∀ stock ∈ graph.stocks,
    ((graph.stockFollowers stock.id).map (·.follower_id)).count user.id =
      if graph.following user ⟨.stock, stock.id⟩ then 1 else 0

/-- The user with an id is found once, or not at all. -/
theorem count_found {user : User} (h : user ∈ graph.users) (id : Nat) :
    ((graph.users.find? (·.id = id)).toList.map (·.id)).count user.id = if id = user.id then 1 else 0 := by
  cases hfound : graph.users.find? (·.id = id) with
  | none =>
    have hne := List.find?_eq_none.1 hfound user h
    simp only [decide_eq_true_eq] at hne
    simpa using Ne.symm hne
  | some found =>
    have hid : found.id = id := by simpa using List.find?_some hfound
    simp [hid, List.count_singleton, beq_iff_eq]

/-- A follower of a user is counted once for each relationship to anything with the id of that user. -/
theorem count_userFollowers {user : User} (h : user ∈ graph.users) (id : Nat) :
    ((graph.userFollowers id).flatten.map (·.id)).count user.id =
      graph.relationships.countP fun row => row.followed.id = id ∧ row.follower_id = user.id := by
  unfold Graph.userFollowers
  induction graph.relationships with
  | nil => rfl
  | cons row rows ih =>
    by_cases hid : row.followed.id = id
    · rw [List.filter_cons_of_pos (by simpa using hid), List.map_cons, List.flatten_cons, List.map_append,
        List.count_append, ih, count_found h, List.countP_cons, Nat.add_comm]
      simp [hid]
    · rw [List.filter_cons_of_neg (by simpa using hid), ih, List.countP_cons]
      simp [hid]

/-- Rows that stand for one relationship only are counted once, if at all. -/
theorem countP_unique {rows : List Relationship} (h : rows.Nodup) (row : Relationship) {p : Relationship → Bool}
    (hp : ∀ other ∈ rows, p other = true ↔ other = row) : rows.countP p = if row ∈ rows then 1 else 0 := by
  rw [← h.count, List.count]
  exact List.countP_congr fun other hother => by simp [hp other hother]

theorem Inv.setLike (h : Inv log graph) : SetLike log graph := by
  refine ⟨?_, ?_, ?_⟩
  · intro user huser object
    rw [← h.last]
    simp [Graph.following]
  · intro user huser followed hfollowed
    rw [count_userFollowers huser, countP_unique h.nodup ⟨user.id, ⟨.user, followed.id⟩⟩]
    · simp [Graph.following]
    · intro other hother
      -- The row is to a user, since no stock that is followed has a user's id.
      have htype : other.followed.id = followed.id → other.followed.type = .user := by
        intro hid
        rcases h.clear other hother with htype | ⟨-, hclear⟩
        · exact htype
        · exact absurd hid.symm (hclear followed hfollowed)
      obtain ⟨follower_id, type, id⟩ := other
      simp only [decide_eq_true_eq, Relationship.mk.injEq, Ref.mk.injEq]
      grind
  · intro user huser stock hstock
    unfold Graph.stockFollowers
    rw [List.count, List.countP_map, List.countP_filter, countP_unique h.nodup ⟨user.id, ⟨.stock, stock.id⟩⟩]
    · simp [Graph.following]
    · intro other hother
      obtain ⟨follower_id, followed⟩ := other
      simp only [Function.comp_apply, beq_iff_eq, decide_eq_true_eq, Bool.and_eq_true, Relationship.mk.injEq]

/-- From no relationships, orderly visits leave a graph that is a set, by what each user did last. -/
theorem orderly_setLike (hrelationships : start.relationships = []) {visits : List Visit}
    (h : AllOrderly start visits) : SetLike (actsOf start visits) (after start visits) := by
  have hstart : Inv [] start := by
    refine ⟨?_, ?_, ?_⟩
    · simp [hrelationships]
    · intro row
      rw [hrelationships]
      exact iff_of_false (by simp) not_last_nil
    · simp [hrelationships]
  exact (hstart.visits h).setLike

end

/-! ## Disorderly visits -/

/-- User 1 and user 2, and stock 2. -/
def strangers : Graph where
  users := [⟨1, "analyst"⟩, ⟨2, "trader"⟩]
  stocks := [⟨2, "A stock", "ABC", none, none, none, 0⟩, ⟨3, "Another stock", "DEF", none, none, none, 0⟩]
  relationships := []

def followTrader : Visit := .create (some 1) true ⟨some "User", some "2"⟩

def unfollowTrader : Visit := .destroy (some 1) ⟨some "User", some "2"⟩

/-- The form of the welcome page names a stock, and one that there is not. -/
def followStocks : Visit := .welcome (some 1) [("DEF", some "stock"), ("GHI", some "stock"), ("ABC", some "stock")]

def followStock : Visit := .create (some 1) true ⟨some "Stock", some "2"⟩

/-- User 1 follows user 2 and stops, and follows stock 3. -/
theorem setLike_followTrader : SetLike (actsOf strangers [followTrader, unfollowTrader, followStocks])
    (after strangers [followTrader, unfollowTrader, followStocks]) := by
  have htrader : followTrader.acts strangers = [.follow ⟨1, ⟨.user, 2⟩⟩] := by decide
  have hnot : unfollowTrader.acts (after strangers [followTrader]) = [.unfollow ⟨1, ⟨.user, 2⟩⟩] := by decide
  have hstocks : followStocks.acts (after strangers [followTrader, unfollowTrader]) = [.follow ⟨1, ⟨.stock, 3⟩⟩] := by
    decide
  refine @orderly_setLike strangers rfl _ ⟨⟨?_, ?_⟩, ⟨?_, ?_⟩, ⟨?_, ?_⟩, trivial⟩
  · intro row hrow
    simp only [htrader, List.mem_singleton, Act.follow.injEq] at hrow
    exact .inl (congrArg (·.followed.type) hrow)
  · intro _ _ _ _ row _
    exact List.not_mem_nil
  · intro row hrow
    cases List.mem_singleton.1 (hnot ▸ hrow)
  · rintro _ _ _ ⟨⟩
  · intro row hrow
    cases List.mem_singleton.1 (hstocks ▸ hrow)
    exact .inr ⟨rfl, by decide⟩
  · rintro _ _ _ ⟨⟩

/-- User 1 follows stock 2, and is among the followers of user 2. -/
theorem followStock_mixes : ¬∀ start visits, start.relationships = [] →
    SetLike (actsOf start visits) (after start visits) := by
  intro h
  have hset := h strangers [followStock] rfl
  have hcount := hset.userFollowers ⟨1, "analyst"⟩ (by decide) ⟨2, "trader"⟩ (by decide)
  exact absurd hcount (by decide)

end MyStockIQ.Following
