import MyStockIQ.SignUp
import MyStockIQ.Feed
import MyStockIQ.Endings
import MyStockIQ.SharedStore.History
/-!
# Who is signed in (`app/helpers/sessions_helper.rb`, `app/controllers/sessions_controller.rb`)

A browser sends its session and two permanent cookies: the signed `user_id` and
the `remember_token`. A session with a user id says who is signed in; without
one the cookies do, if the digest in the user's row is that of the token.

There is one digest for each user. `remember` overwrites it and `forget` clears
it, on whatever browser, so of all the tokens a user was issued the last one
works, until the user is forgotten (`recognised_iff`).
-/

open SharedStore Prog

namespace MyStockIQ.Sessions

/-- `BCrypt::Password`: `create` draws a salt, and `is_password?` accepts the
string that was hashed. -/
structure BCrypt where
  create : String → String → String
  isPassword : String → String → Bool
  accepts : ∀ salt string attempt, isPassword (create salt string) attempt = true ↔ attempt = string

structure User extends toSignUpUser : SignUp.User where
  remember_digest : Option String
  deriving DecidableEq

/-- The tables a user has rows in that are destroyed along with the user, and `users`. -/
structure Site where
  users : List User
  referrals : List SignUp.Referral
  relationships : List Relationship
  streams : List Stream
  referral_seq : Nat
  deriving DecidableEq

/-! ## Statements -/

inductive Query where
  | user (id : Nat)
  | userNamed (username : Option String)
  | userMailed (email : String)
  | referralsOf (inviter_id : Nat)

/-- Destroying a user takes its `dependent: :destroy` rows along. -/
inductive Stmt where
  | select (query : Query)
  | updateUser (id : Nat) (username email : String) (remember_digest : Option String)
  | destroyUser (id : Nat)
  | insertReferral (row : SignUp.Referral)

/-- The unique indexes on `username` and `email`, for an `UPDATE`. -/
def Site.taken (db : Site) (id : Nat) (username email : String) : Bool :=
  db.users.any fun user => user.id ≠ id ∧ (user.username = username ∨ user.email = email)

def Site.exec (db : Site) : Stmt → Site
  | .select _ => db
  | .updateUser id username email remember_digest =>
    if db.taken id username email then db
    else
      { db with
        users := db.users.map fun row =>
          if row.id = id then { row with username := username, email := email, remember_digest := remember_digest }
          else row }
  | .destroyUser id =>
    { db with
      users := db.users.filter (·.id ≠ id)
      referrals := db.referrals.filter (·.inviter_id ≠ some id)
      relationships := db.relationships.filter (·.follower_id ≠ id)
      streams := db.streams.filter (·.targetable ≠ ⟨.user, id⟩) }
  | .insertReferral row =>
    { db with
      referrals := db.referrals ++ [{ row with id := db.referral_seq }]
      referral_seq := db.referral_seq + 1 }

@[simp] theorem exec_select (db : Site) (query : Query) : db.exec (.select query) = db := rfl

abbrev Request := Prog Stmt Site SignUp.Error

def select {α : Type} (query : Query) (answer : Site → α) : Request α := Prog.query (.select query) answer

def write (stmt : Stmt) : Request Unit := Prog.exec stmt

/-- `value`, or the exception of calling `method` on `nil`. -/
def orNil {α : Type} (value : Option α) (method : String) : Request α :=
  match value with
  | some a => .ret a
  | none => .raise (.noMethodError method)

/-- `User.find_by(id: ..)` -/
def Site.user (db : Site) (id : Nat) : Option User := db.users.find? (·.id = id)

/-- `User.find_by(username: ..)` -/
def Site.userNamed (db : Site) (username : Option String) : Option User :=
  db.users.find? fun user => some user.username = username

/-- `User.find_by(email: ..)` -/
def Site.userMailed (db : Site) (email : String) : Option User := db.users.find? (·.email = email)

/-! ## `User` -/

/-- `save(validate: false)` after `remember_digest` was assigned. The callbacks
before it downcase the email and the username. -/
def User.save (self : User) (remember_digest : Option String) : Request Unit :=
  let username := self.username.toLower
  let email := self.email.toLower
  .step (.updateUser self.id username email remember_digest) fun db =>
    if db.taken self.id username email then .raise .recordNotUnique else .ret ()

/-- `User.remember`, where `remember_token` is what `SecureRandom` makes up. -/
def User.remember (bcrypt : BCrypt) (remember_token salt : String) (user : User) : Request String := do
  user.save (some (bcrypt.create salt remember_token))
  return remember_token

/-- `User.forget` -/
def User.forget (user : User) : Request Unit := user.save none

/-- `authenticated?` -/
def User.authenticated (bcrypt : BCrypt) (self : User) (remember_token : Option String) : Bool :=
  match self.remember_digest with
  | none => false
  | some remember_digest => bcrypt.isPassword remember_digest (remember_token.getD "")

/-! ## `SessionsHelper` -/

/-- What a browser sends: the session's user id and the two cookies. -/
structure Jar where
  session_user_id : Option Nat
  signed_user_id : Option Nat
  remember_token : Option String
  deriving DecidableEq

/-- The controller of one request, with the browser's jar. -/
structure Controller extends Jar where
  current_user : Option User := none

namespace Controller

def logIn (self : Controller) (user : User) : Controller := { self with session_user_id := some user.id }

/-- `remember` -/
def remember (self : Controller) (bcrypt : BCrypt) (remember_token salt : String) (user : User) :
    Request Controller := do
  let remember_token ← user.remember bcrypt remember_token salt
  return { self with signed_user_id := some user.id, remember_token := some remember_token }

/-- `forget` -/
def forget (self : Controller) (user : User) : Request Controller := do
  user.forget
  return { self with signed_user_id := none, remember_token := none }

/-- `current_user` -/
def currentUser (self : Controller) (bcrypt : BCrypt) : Request (Controller × Option User) :=
  match self.session_user_id, self.signed_user_id with
  | some user_id, _ =>
    match self.current_user with
    | some user => .ret (self, some user)
    | none => do
      let found ← select (.user user_id) (·.user user_id)
      return ({ self with current_user := found }, found)
  | none, some user_id => do
    let found ← select (.user user_id) (·.user user_id)
    match found with
    | some user =>
      if user.authenticated bcrypt self.remember_token then
        return ({ self.logIn user with current_user := some user }, some user)
      else return (self, none)
    | none => return (self, none)
  | none, none => .ret (self, none)

/-- `log_out` -/
def logOut (self : Controller) (bcrypt : BCrypt) : Request Controller := do
  let (self, found) ← self.currentUser bcrypt
  let user ← orNil found "remember_digest="
  let self ← self.forget user
  return { self with session_user_id := none, current_user := none }

end Controller

/-! ## `SessionsController` -/

inductive Reply where
  | feed
  | invalidSignIn
  | login
  | root
  | users
  | ok
  deriving DecidableEq

/-- The user the form names, by email if it has an `@`. -/
def namedUser (email : String) : Request (Option User) :=
  if email.toLower.toList.contains '@' then select (.userMailed email.toLower) (·.userMailed email.toLower)
  else select (.userNamed (some email)) (·.userNamed (some email))

def SessionsController.create (self : Controller) (bcrypt : BCrypt) (email password : Option String)
    (remember_token salt : String) : Request (Controller × Reply) := do
  let email ← orNil email "downcase"
  let found ← namedUser email
  match found with
  | some user =>
    if bcrypt.isPassword user.password_digest (password.getD "") then
      let self := self.logIn user
      let self ← self.remember bcrypt remember_token salt user
      return (self, .feed)
    else return (self, .invalidSignIn)
  | none => return (self, .invalidSignIn)

def SessionsController.destroy (self : Controller) (bcrypt : BCrypt) : Request (Controller × Reply) := do
  let (self, found) ← self.currentUser bcrypt
  match found with
  | some _ =>
    let self ← self.logOut bcrypt
    return (self, .login)
  | none => return (self, .login)

/-! ## Browsers -/

/-- A token was issued to a user, or the user was forgotten. -/
inductive Event where
  | remember (user_id : Nat) (remember_token : String)
  | forget (user_id : Nat)
  deriving DecidableEq

def Event.user_id : Event → Nat
  | remember user_id _ => user_id
  | forget user_id => user_id

/-- The event is one of this user. -/
def Event.Of (user_id : Nat) (event : Event) : Prop := event.user_id = user_id

/-- The tables, the jar of each browser, and a log of what was issued and forgotten. -/
structure World (B : Type) where
  db : Site
  jars : B → Jar
  log : List Event

inductive Visit (B : Type) where
  | login (browser : B) (email password : Option String) (remember_token salt : String)
  | logout (browser : B)
  /-- Any page that asks who is signed in. -/
  | page (browser : B)
  /-- The browser is closed: its session ends, and its permanent cookies stay. -/
  | close (browser : B)

/-- The user `current_user` finds in these tables, and the controller it leaves. -/
def Site.currentUser (db : Site) (bcrypt : BCrypt) (jar : Jar) : Option User :=
  match jar.session_user_id, jar.signed_user_id with
  | some user_id, _ => db.user user_id
  | none, some user_id => (db.user user_id).filter (·.authenticated bcrypt jar.remember_token)
  | none, none => none

/-- Who a completed login signs in. -/
def signedIn (answer : Controller × Reply) : Option Nat :=
  if answer.2 = .feed then answer.1.session_user_id else none

section
variable {B : Type} [DecidableEq B]

/-- The browser stores the jar of the answer. An exception has none. -/
def World.answer {α : Type} (w : World B) (browser : B) (events : α → List Event) (jar : α → Jar)
    (outcome : Except SignUp.Error α × Site) : World B :=
  match outcome.1 with
  | .ok answer => ⟨outcome.2, Function.update w.jars browser (jar answer), w.log ++ events answer⟩
  | .error _ => { w with db := outcome.2 }

def World.visit (bcrypt : BCrypt) (w : World B) : Visit B → World B
  | .login browser email password remember_token salt =>
    w.answer browser (fun answer => (signedIn answer).toList.map (.remember · remember_token)) (·.1.toJar)
      ((SessionsController.create ⟨w.jars browser, none⟩ bcrypt email password remember_token salt).run Site.exec w.db)
  | .logout browser =>
    w.answer browser (fun _ => (w.db.currentUser bcrypt (w.jars browser)).toList.map (.forget ·.id)) (·.1.toJar)
      ((SessionsController.destroy ⟨w.jars browser, none⟩ bcrypt).run Site.exec w.db)
  | .page browser =>
    w.answer browser (fun _ => []) (·.1.toJar) ((Controller.currentUser ⟨w.jars browser, none⟩ bcrypt).run Site.exec w.db)
  | .close browser =>
    { w with jars := Function.update w.jars browser { w.jars browser with session_user_id := none } }

end

/-! ## What the requests do -/

section
variable (bcrypt : BCrypt) (db : Site) (jar : Jar)

theorem user_id_of {id : Nat} {user : User} (h : db.user id = some user) : user.id = id := by
  simpa using List.find?_some h

/-- `current_user` writes nothing; who it finds is in the session from then on. -/
theorem run_currentUser : ∃ self : Controller,
    (Controller.currentUser ⟨jar, none⟩ bcrypt).run Site.exec db = (.ok (self, db.currentUser bcrypt jar), db) ∧
      ∀ user, db.currentUser bcrypt jar = some user →
        self.session_user_id = some user.id ∧ self.current_user = some user := by
  obtain ⟨session, signed, token⟩ := jar
  cases session with
  | some id => exact ⟨_, rfl, fun user h => ⟨congrArg some (user_id_of db h).symm, h⟩⟩
  | none =>
    cases signed with
    | none => exact ⟨_, rfl, by simp [Site.currentUser]⟩
    | some id =>
      simp only [Controller.currentUser, Site.currentUser, select, bind_eq, query_bind, run_step, exec_select]
      cases hfound : db.user id with
      | none => exact ⟨_, rfl, by simp⟩
      | some user =>
        by_cases hauth : user.authenticated bcrypt token = true
        · simp only [Option.filter, hauth, if_true]
          refine ⟨_, rfl, ?_⟩
          rintro _ ⟨⟩
          exact ⟨rfl, rfl⟩
        · simp only [Option.filter, hauth]
          exact ⟨_, rfl, by simp⟩

/-- The digest in the row of a user. -/
def Site.digest (id : Nat) : Option String := (db.user id).bind (·.remember_digest)

theorem digest_updateUser {user : User} {id : Nat} (hfound : db.user id = some user) {username email : String}
    (hfree : db.taken id username email = false) (remember_digest : Option String) (other : Nat) :
    (db.exec (.updateUser id username email remember_digest)).digest other =
      if other = id then remember_digest else db.digest other := by
  let set (row : User) : User := { row with username := username, email := email, remember_digest := remember_digest }
  have hfind := find_updated (·.id) set (fun _ => rfl) id other db.users
  have huser : (db.exec (.updateUser id username email remember_digest)).user other =
      (db.user other).map fun row => if row.id = id then set row else row := by
    simpa [Site.exec, hfree, Site.user] using hfind
  unfold Site.digest
  rw [huser]
  by_cases hother : other = id
  · subst hother
    simp [hfound, user_id_of db hfound, set]
  · rw [if_neg hother]
    cases hrow : db.user other with
    | none => rfl
    | some row =>
      have hne : row.id ≠ id := by rwa [user_id_of db hrow]
      simp [hne]

theorem user_isSome {user : User} (h : user ∈ db.users) : ∃ row, db.user user.id = some row := by
  refine Option.isSome_iff_exists.1 (List.find?_isSome.2 ⟨user, h, ?_⟩)
  simp

/-- The form names a user of the table, and nothing is written. -/
theorem run_namedUser (email : String) : ∃ found,
    (namedUser email).run Site.exec db = (.ok found, db) ∧ ∀ user, found = some user → user ∈ db.users := by
  unfold namedUser
  split
  · exact ⟨_, rfl, fun user h => List.mem_of_find?_eq_some h⟩
  · exact ⟨_, rfl, fun user h => List.mem_of_find?_eq_some h⟩

theorem currentUser_mem {bcrypt : BCrypt} {db : Site} {jar : Jar} {user : User}
    (h : db.currentUser bcrypt jar = some user) : user ∈ db.users := by
  unfold Site.currentUser at h
  split at h
  · exact List.mem_of_find?_eq_some h
  · exact List.mem_of_find?_eq_some (Option.filter_eq_some_iff.1 h).1
  · cases h

/-- The tables after `save(validate: false)` on a user. -/
def Site.saved (user : User) (remember_digest : Option String) : Site :=
  db.exec (.updateUser user.id user.username.toLower user.email.toLower remember_digest)

/-- A login signs nobody in and writes nothing, or stores the digest of the new token. -/
theorem run_login (email password : Option String) (remember_token salt : String) :
    (∃ result, (SessionsController.create ⟨jar, none⟩ bcrypt email password remember_token salt).run Site.exec db =
      (result, db) ∧ ∀ answer, result = .ok answer → signedIn answer = none) ∨
    ∃ user self, user ∈ db.users ∧ db.taken user.id user.username.toLower user.email.toLower = false ∧
      signedIn (self, .feed) = some user.id ∧
      (SessionsController.create ⟨jar, none⟩ bcrypt email password remember_token salt).run Site.exec db =
        (.ok (self, .feed), db.saved user (some (bcrypt.create salt remember_token))) := by
  unfold SessionsController.create
  cases email with
  | none => exact .inl ⟨_, rfl, by simp⟩
  | some email =>
    simp only [orNil, bind_eq, ret_bind]
    obtain ⟨found, hrun, hmem⟩ := run_namedUser db email
    rw [run_bind_ok Site.exec hrun]
    cases found with
    | none => exact .inl ⟨_, rfl, by rintro _ ⟨⟩; rfl⟩
    | some user =>
      by_cases hpassword : bcrypt.isPassword user.password_digest (password.getD "") = true
      · simp only [hpassword, if_true, Controller.remember, User.remember, bind_eq]
        cases htaken : db.taken user.id user.username.toLower user.email.toLower with
        | true =>
          refine .inl ⟨.error .recordNotUnique, ?_, by simp⟩
          simp [User.save, htaken, Site.exec]
        | false =>
          let self : Controller :=
            { Controller.logIn ⟨jar, none⟩ user with
              signed_user_id := some user.id
              remember_token := some remember_token }
          refine .inr ⟨user, self, hmem user rfl, htaken, rfl, ?_⟩
          simp only [User.save, step_bind, run_step, htaken, Bool.false_eq_true, if_false, ret_bind, pure_eq, run_ret]
          rfl
      · simp only [hpassword]
        exact .inl ⟨_, rfl, by rintro _ ⟨⟩; rfl⟩

/-- A logout writes nothing if nobody is signed in, and forgets who is. -/
theorem run_logout :
    (∃ result, (SessionsController.destroy ⟨jar, none⟩ bcrypt).run Site.exec db = (result, db) ∧
      ∀ answer, result = .ok answer → db.currentUser bcrypt jar = none) ∨
    ∃ user self, db.currentUser bcrypt jar = some user ∧
      db.taken user.id user.username.toLower user.email.toLower = false ∧
      (SessionsController.destroy ⟨jar, none⟩ bcrypt).run Site.exec db =
        (.ok (self, .login), db.saved user none) := by
  obtain ⟨self, hrun, hself⟩ := run_currentUser bcrypt db jar
  unfold SessionsController.destroy
  rw [bind_eq, run_bind_ok Site.exec hrun]
  cases hfound : db.currentUser bcrypt jar with
  | none => exact .inl ⟨_, rfl, fun _ _ => rfl⟩
  | some user =>
    obtain ⟨hsession, hcurrent⟩ := hself user hfound
    simp only [Controller.logOut, Controller.currentUser, hsession, hcurrent, bind_eq, ret_bind, orNil,
      Controller.forget, User.forget]
    cases htaken : db.taken user.id user.username.toLower user.email.toLower with
    | true =>
      refine .inl ⟨.error .recordNotUnique, ?_, by simp⟩
      simp [User.save, htaken, Site.exec]
    | false =>
      refine .inr ⟨user, ⟨⟨none, none, none⟩, none⟩, rfl, htaken, ?_⟩
      simp only [User.save, step_bind, run_step, htaken, Bool.false_eq_true, if_false, ret_bind, pure_eq, run_ret]
      rfl

end

/-! ## The last token -/

/-- The digest of a user's row is that of the last token issued, unless the user
has been forgotten since, or has none. -/
def Issued (bcrypt : BCrypt) (log : List Event) (db : Site) : Prop :=
  ∀ id, (db.digest id = none ∧ ∀ r, ¬Last (Event.Of id) log (.remember id r)) ∨
    ∃ salt r, db.digest id = some (bcrypt.create salt r) ∧ Last (Event.Of id) log (.remember id r)

section
variable {bcrypt : BCrypt} {log : List Event} {db : Site} {user : User}

/-- A save of the digest of one user leaves the other users' as they were. -/
theorem Issued.save (h : Issued bcrypt log db) (hmem : user ∈ db.users)
    (hfree : db.taken user.id user.username.toLower user.email.toLower = false) (event : Event)
    (hevent : event.Of user.id) {remember_digest : Option String}
    (hnew : (remember_digest = none ∧ ∀ r, event ≠ .remember user.id r) ∨
      ∃ salt r, remember_digest = some (bcrypt.create salt r) ∧ event = .remember user.id r) :
    Issued bcrypt (log ++ [event]) (db.saved user remember_digest) := by
  obtain ⟨row, hrow⟩ := user_isSome db hmem
  intro id
  have hdigest := digest_updateUser db hrow hfree remember_digest id
  by_cases hid : id = user.id
  · subst hid
    rw [if_pos rfl] at hdigest
    rcases hnew with ⟨hnone, hne⟩ | ⟨salt, r, hsome, rfl⟩
    · exact .inl ⟨hdigest.trans hnone, fun r hlast => hne r ((last_append_of hevent).1 hlast).symm⟩
    · exact .inr ⟨salt, r, hdigest.trans hsome, (last_append_of hevent).2 rfl⟩
  · rw [if_neg hid] at hdigest
    have hother : ¬event.Of id := fun heq => hid (heq.symm.trans hevent)
    rcases h id with ⟨hnone, hlast⟩ | ⟨salt, r, hsome, hlast⟩
    · exact .inl ⟨hdigest.trans hnone, fun r hlast' => hlast r ((last_append_of_not hother).1 hlast')⟩
    · exact .inr ⟨salt, r, hdigest.trans hsome, (last_append_of_not hother).2 hlast⟩

end

section
variable {B : Type} [DecidableEq B] {bcrypt : BCrypt} {w : World B}

/-- One visit, of whatever kind, from whatever browser. -/
theorem Issued.visit (h : Issued bcrypt w.log w.db) (visit : Visit B) :
    Issued bcrypt (w.visit bcrypt visit).log (w.visit bcrypt visit).db := by
  cases visit with
  | login browser email password remember_token salt =>
    simp only [World.visit]
    rcases run_login bcrypt w.db (w.jars browser) email password remember_token salt with
      ⟨result, hrun, hnone⟩ | ⟨user, self, hmem, hfree, hself, hrun⟩ <;> rw [hrun]
    · cases result with
      | error e => exact h
      | ok answer => simpa [World.answer, hnone answer rfl] using h
    · simp only [World.answer, hself, Option.toList_some, List.map_cons, List.map_nil]
      exact h.save hmem hfree (.remember user.id remember_token) rfl (.inr ⟨salt, remember_token, rfl, rfl⟩)
  | logout browser =>
    simp only [World.visit]
    rcases run_logout bcrypt w.db (w.jars browser) with
      ⟨result, hrun, hnone⟩ | ⟨user, self, hfound, hfree, hrun⟩ <;> rw [hrun]
    · cases result with
      | error e => exact h
      | ok answer => simpa [World.answer, hnone answer rfl] using h
    · simp only [World.answer, hfound, Option.toList_some, List.map_cons, List.map_nil]
      exact h.save (currentUser_mem hfound) hfree (.forget user.id) rfl (.inl ⟨rfl, by simp⟩)
  | page browser =>
    obtain ⟨self, hrun, -⟩ := run_currentUser bcrypt w.db (w.jars browser)
    simp only [World.visit, hrun, World.answer, List.append_nil]
    exact h
  | close browser => exact h

theorem Issued.visits (h : Issued bcrypt w.log w.db) (visits : List (Visit B)) :
    Issued bcrypt (visits.foldl (World.visit bcrypt) w).log (visits.foldl (World.visit bcrypt) w).db := by
  induction visits generalizing w with
  | nil => exact h
  | cons visit visits ih => exact ih (h.visit visit)

/-- A request without a session user id that carries these cookies is one of the user. -/
def Recognised (bcrypt : BCrypt) (db : Site) (user_id : Nat) (remember_token : String) : Prop :=
  ∃ self user, (Controller.currentUser ⟨⟨none, some user_id, some remember_token⟩, none⟩ bcrypt).run Site.exec db =
    (.ok (self, some user), db) ∧ user.id = user_id

/-- The cookies are looked up in the digest of the user's row. -/
theorem recognised_digest (bcrypt : BCrypt) (db : Site) (user_id : Nat) (remember_token : String) :
    Recognised bcrypt db user_id remember_token ↔
      ∃ digest, db.digest user_id = some digest ∧ bcrypt.isPassword digest remember_token = true := by
  obtain ⟨self, hrun, -⟩ := run_currentUser bcrypt db ⟨none, some user_id, some remember_token⟩
  unfold Recognised
  rw [hrun]
  simp only [Site.currentUser, Site.digest, Prod.mk.injEq, Except.ok.injEq, and_true]
  cases hrow : db.user user_id with
  | none => simp
  | some user =>
    have hid := user_id_of db hrow
    cases hdigest : user.remember_digest with
    | none => simp [Option.filter, User.authenticated, hdigest]
    | some digest => simp [Option.filter, User.authenticated, hdigest, hid]

/-- After any visits from any browsers, cookies are recognised if and only if their
token is the last one the user was issued, and the user has not been forgotten since. -/
theorem recognised_iff (hlog : w.log = []) (hfresh : ∀ user ∈ w.db.users, user.remember_digest = none)
    (visits : List (Visit B)) (user_id : Nat) (remember_token : String) :
    Recognised bcrypt (visits.foldl (World.visit bcrypt) w).db user_id remember_token ↔
      Last (Event.Of user_id) (visits.foldl (World.visit bcrypt) w).log (.remember user_id remember_token) := by
  have hstart : Issued bcrypt w.log w.db := by
    intro id
    left
    rw [hlog]
    refine ⟨?_, fun r => not_last_nil⟩
    unfold Site.digest
    cases hrow : w.db.user id with
    | none => rfl
    | some user => exact hfresh user (List.mem_of_find?_eq_some hrow)
  rw [recognised_digest]
  rcases hstart.visits visits user_id with ⟨hnone, hlast⟩ | ⟨salt, r, hsome, hlast⟩
  · simp [hnone, hlast remember_token]
  · rw [hsome]
    simp only [Option.some.injEq, exists_eq_left', bcrypt.accepts]
    constructor
    · rintro rfl
      exact hlast
    · intro hlast'
      exact (Event.remember.inj (hlast'.unique hlast)).2

end

/-! ## Two browsers -/

/-- A digest that is the string itself. -/
def plain : BCrypt where
  create _ string := string
  isPassword digest attempt := attempt = digest
  accepts := by simp

/-- One user, who has no token, and two browsers without cookies. -/
def signedOut : World Bool where
  db := ⟨[⟨⟨⟨1, "analyst"⟩, "analyst@example.com", "password", false⟩, none⟩], [], [], [], 1⟩
  jars _ := ⟨none, none, none⟩
  log := []

/-- The user logs in by name on the one browser, and by email on the other. -/
def twoLogins : List (Visit Bool) :=
  [.login true (some "analyst") (some "password") "first" "",
    .login false (some "analyst@example.com") (some "password") "second" ""]

theorem log_twoLogins : (twoLogins.foldl (World.visit plain) signedOut).log =
    [.remember 1 "first", .remember 1 "second"] := by
  decide +kernel

/-- The second login's token works from then on, and the first one's does not. -/
theorem recognised_twoLogins :
    Recognised plain (twoLogins.foldl (World.visit plain) signedOut).db 1 "second" ∧
      ¬Recognised plain (twoLogins.foldl (World.visit plain) signedOut).db 1 "first" := by
  have hlast : Last (Event.Of 1) (twoLogins.foldl (World.visit plain) signedOut).log (.remember 1 "second") := by
    rw [log_twoLogins]
    exact ⟨[.remember 1 "first"], [], rfl, rfl, by simp⟩
  constructor
  · exact (recognised_iff rfl (by simp [signedOut]) twoLogins 1 "second").2 hlast
  · intro h
    have hfirst := (recognised_iff rfl (by simp [signedOut]) twoLogins 1 "first").1 h
    exact absurd (hfirst.unique hlast) (by decide)

end MyStockIQ.Sessions
