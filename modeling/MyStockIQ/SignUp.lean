import MyStockIQ.Controllers
/-!
# Signing up (`app/controllers/users_controller.rb`, `app/models/user.rb`)

A new user needs a free slot: a referral with the code of the form that nobody
was invited with. The users here have the columns a sign-up fills in.

`User` validates the presence of `admin`, a column that is false by default and
that the form cannot set. False is blank, so no new user is valid
(`errors_ne_nil`), and what the action does after saving one is never reached.
-/

open SharedStore Prog

namespace MyStockIQ.SignUp

structure User extends MyStockIQ.User where
  email : String
  password_digest : String
  admin : Bool
  deriving DecidableEq

structure Referral where
  id : Nat
  referral_code : Option Int
  email : Option String
  inviter_id : Option Nat
  invited_id : Option Nat
  deriving DecidableEq

structure Accounts where
  users : List User
  referrals : List Referral
  user_seq : Nat
  referral_seq : Nat
  deriving DecidableEq

/-! ## Statements -/

inductive Query where
  | usernameTaken (username : Option String)
  | emailTaken (email : Option String)
  | referral (referral_code : Option Int)
  | user (id : Nat)
  | referralSpots (referral_code : Option Int)

inductive Stmt where
  | select (query : Query)
  | insertUser (row : User)
  | insertReferral (row : Referral)
  | updateReferral (id : Nat) (invited_id : Option Nat)

/-- The unique indexes on `username` and `email`. -/
def Accounts.indexed (db : Accounts) (row : User) : Bool :=
  db.users.any fun user => user.username = row.username ∨ user.email = row.email

def Accounts.exec (db : Accounts) : Stmt → Accounts
  | .select _ => db
  | .insertUser row =>
    if db.indexed row then db
    else { db with users := db.users ++ [{ row with id := db.user_seq }], user_seq := db.user_seq + 1 }
  | .insertReferral row =>
    { db with
      referrals := db.referrals ++ [{ row with id := db.referral_seq }]
      referral_seq := db.referral_seq + 1 }
  | .updateReferral id invited_id =>
    { db with referrals := db.referrals.map fun row => if row.id = id then { row with invited_id := invited_id } else row }

inductive Error where
  | noMethodError (method : String)
  | recordInvalid
  | recordNotSaved
  | recordNotUnique
  deriving DecidableEq

abbrev Request := Prog Stmt Accounts Error

def select {α : Type} (query : Query) (answer : Accounts → α) : Request α := Prog.query (.select query) answer

def write (stmt : Stmt) : Request Unit := Prog.exec stmt

def Accounts.user (db : Accounts) (id : Nat) : Option User := db.users.find? (·.id = id)

/-- `Referral.find_by(referral_code: ..)` -/
def Accounts.referral (db : Accounts) (referral_code : Option Int) : Option Referral :=
  db.referrals.find? (·.referral_code = referral_code)

/-- `Referral.where(referral_code: .., invited_id: nil)` -/
def Accounts.referralSpots (db : Accounts) (referral_code : Option Int) : List Referral :=
  db.referrals.filter fun row => row.referral_code = referral_code ∧ row.invited_id = none

/-- The lookups of `uniqueness: {case_sensitive: false}`. -/
def Accounts.usernameTaken (db : Accounts) (username : Option String) : Bool :=
  db.users.any fun user => username.any (·.toLower = user.username.toLower)

def Accounts.emailTaken (db : Accounts) (email : Option String) : Bool :=
  db.users.any fun user => email.any (·.toLower = user.email.toLower)

/-! ## Numbers in a form -/

/-- `String#to_i` -/
def toInt (s : String) : Int :=
  let (negative, cs) := sign (s.toList.dropWhile isSpace)
  if negative then -number (digits cs).1 else number (digits cs).1

/-- An integer column that is assigned, or compared with, the string of a form. -/
def castInteger : Option String → Option Int
  | none => none
  | some s => if blank s then none else some (toInt s)

/-- What is left of a number after its exponent, if it has one. -/
def afterExponent : List Char → Option (List Char)
  | [] => some []
  | c :: cs =>
    if c = 'e' ∨ c = 'E' then
      if (digits (sign cs).2).1 = [] then none else some (digits (sign cs).2).2
    else some (c :: cs)

/-- The `numericality` of a string: all of it is a number for `Kernel.Float`. -/
def numeric (s : String) : Bool :=
  let cs := (sign (s.toList.dropWhile isSpace)).2
  let (whole, rest) := digits cs
  let afterFraction := match rest with
    | '.' :: cs => if (digits cs).1 = [] then none else some (digits cs).2
    | cs => if whole = [] then none else some cs
  ((afterFraction.bind afterExponent).map (·.all isSpace)).getD false

/-! ## Validations -/

/-- `[-a-z0-9]`, ignoring case. -/
def usernameChar (c : Char) : Bool := c = '-' || c.isAlphanum

/-- `/\A[-a-z0-9]+\z/i` -/
def usernameFormat (username : String) : Bool := username.toList ≠ [] && username.toList.all usernameChar

/-- The parts of a text between its dots. -/
def labels (cs : List Char) : List (List Char) := cs.splitOnP (· = '.')

/-- `[a-z\d\-]+(\.[a-z\d\-]+)*\.[a-z]+`: two labels or more, the last one of letters only. -/
def domainFormat (domain : List Char) : Bool :=
  2 ≤ (labels domain).length && (labels domain).all (fun label => label ≠ [] && label.all usernameChar) &&
    ((labels domain).getLast?.getD []).all Char.isAlpha

/-- `VALID_EMAIL_REGEX`: `/\A[\w+\-.]+@[a-z\d\-]+(\.[a-z\d\-]+)*\.[a-z]+\z/i` -/
def emailFormat (email : String) : Bool :=
  let (name, rest) := email.toList.span (· ≠ '@')
  name ≠ [] && name.all (fun c => c.isAlphanum || c = '_' || c = '+' || c = '-' || c = '.') &&
    match rest with
    | _ :: domain => domainFormat domain
    | [] => false

/-- The form of a new user. -/
structure UserParams where
  username : Option String
  email : Option String
  password : Option String
  password_confirmation : Option String
  deriving DecidableEq

/-- `User.new(user_params)`: the form cannot set `admin`, which is false by default. -/
structure NewUser where
  params : UserParams
  admin : Bool := false

def usernameErrors (username : String) (taken : Bool) : List String :=
  messageIf (blank username) "Username can't be blank" ++
    messageIf (username.length < 5) "Username is too short (minimum is 5 characters)" ++
    messageIf (25 < username.length) "Username is too long (maximum is 25 characters)" ++
    messageIf (!usernameFormat username) "Username is invalid" ++
    messageIf taken "Username has already been taken"

def emailErrors (email : String) (taken : Bool) : List String :=
  messageIf (blank email) "Email can't be blank" ++
    messageIf (255 < email.length) "Email is too long (maximum is 255 characters)" ++
    messageIf (!emailFormat email) "Email is invalid" ++
    messageIf taken "Email has already been taken"

/-- The errors of `has_secure_password` and of the minimum length. An empty
password is not assigned. -/
def passwordErrors (password : String) (password_confirmation : Option String) : List String :=
  messageIf (password = "") "Password can't be blank" ++
    messageIf (72 < password.length) "Password is too long (maximum is 72 characters)" ++
    messageIf (!blank password && password_confirmation.any (· ≠ password))
      "Password confirmation doesn't match Password" ++
    messageIf (!blank password && password.length < 6) "Password is too short (minimum is 6 characters)"

/-- `validates :admin, presence: true` -/
def adminErrors (admin : Bool) : List String := messageIf (!admin) "Admin can't be blank"

/-- The full messages after `valid?`, which looks up the username and the email ignoring case. -/
def NewUser.errors (self : NewUser) : Request (List String) := do
  let username_taken ← select (.usernameTaken self.params.username) (·.usernameTaken self.params.username)
  let email_taken ← select (.emailTaken self.params.email) (·.emailTaken self.params.email)
  return usernameErrors (self.params.username.getD "") username_taken ++
    emailErrors (self.params.email.getD "") email_taken ++
    passwordErrors (self.params.password.getD "") self.params.password_confirmation ++ adminErrors self.admin

/-- `@user.save`: the id of the new row, or `nil` if the user is not valid. -/
def NewUser.save (self : NewUser) (digest : String → String) : Request (Option Nat) := do
  let errors ← self.errors
  match errors with
  | [] =>
    let row : User :=
      { id := 0
        username := (self.params.username.getD "").toLower
        email := (self.params.email.getD "").toLower
        password_digest := digest (self.params.password.getD "")
        admin := self.admin }
    .step (.insertUser row) fun db => if db.indexed row then .raise .recordNotUnique else .ret (some db.user_seq)
  | _ => return none

/-- The validations of `Referral`, where `numeric` tells whether its code is a number. -/
def Referral.valid (self : Referral) (numeric : Bool) : Bool :=
  self.referral_code.isSome && numeric && self.inviter_id.isSome && (self.email.getD "").length ≤ 255 &&
    emailFormat (self.email.getD "")

/-- `referrals.create!` -/
def Referral.create! (self : Referral) (numeric : Bool) : Request Unit :=
  if self.valid numeric then write (.insertReferral self) else .raise .recordInvalid

/-- `@referral.save`, after `invited_id` was assigned. -/
def Referral.save (self : Referral) (invited_id : Option Nat) : Request Unit :=
  if self.valid true then write (.updateReferral self.id invited_id) else .ret ()

/-! ## `UsersController` -/

inductive Reply where
  | welcome
  /-- The errors shown over the form. -/
  | errors (messages : List String)
  deriving DecidableEq

/-- The answer to a request, and the user it logs in. -/
structure Response where
  session : Option Nat
  reply : Reply
  deriving DecidableEq

/-- A slot of an admin's code is used up by nobody: `create` adds one each time. -/
def addSpot (referrer : User) (referral_code : Option String) : Request Unit :=
  if referrer.admin then
    Referral.create! ⟨0, castInteger referral_code, some "noemail@noemail.com", some referrer.id, none⟩
      ((referral_code.map numeric).getD false)
  else .ret ()

/-- The three referrals of a new user. -/
def inviteFriends (user_id : Option Nat) (email : String) (generated : Nat) : Request Unit :=
  match user_id with
  | none => .raise .recordNotSaved
  | some id => Prog.each (fun _ => Referral.create! ⟨0, some generated, some email, some id, none⟩ true) [(), (), ()]

/-- What `create` does for a valid user while there is a slot. The two mails at the end are left out. -/
def welcome (user : NewUser) (referral_code : Option Int) (digest : String → String) (generated : Nat) :
    Request Response := do
  let user_id ← user.save digest
  let spot ← select (.referralSpots referral_code) fun db => (db.referralSpots referral_code).head?
  match spot with
  | none => .raise (.noMethodError "invited_id=")
  | some referral =>
    referral.save user_id
    inviteFriends user_id (user.params.email.getD "").toLower generated
    return ⟨user_id, .welcome⟩

/-- `referral.inviter` -/
def Referral.inviter (self : Referral) : Request (Option User) :=
  match self.inviter_id with
  | none => .ret none
  | some id => select (.user id) (·.user id)

/-- `referral_spots.exists?` -/
def spotsExist (referral_code : Option Int) : Request Bool :=
  select (.referralSpots referral_code) fun db => !(db.referralSpots referral_code).isEmpty

/-- `create` once a slot of an admin's code has been added: a valid user is
welcomed while there is a slot, anyone else gets the errors. -/
def register (user : NewUser) (referral_code : Option Int) (digest : String → String) (generated : Nat) :
    Request Response := do
  let errors ← user.errors
  let accepted ← if errors = [] then spotsExist referral_code else .ret false
  if accepted then welcome user referral_code digest generated
  else
    let spots ← spotsExist referral_code
    return ⟨none, .errors (errors ++ messageIf (!spots) "Referral code is invalid.")⟩

/-- `create`. `digest` is `BCrypt::Password.create`, and `generated` is the code
`generate_code` makes up. -/
def UsersController.create (digest : String → String) (generated : Nat) (params : UserParams)
    (referral_code : Option String) : Request Response := do
  let code := castInteger referral_code
  let found ← select (.referral code) (·.referral code)
  match found with
  | none => .raise (.noMethodError "inviter")
  | some referral =>
    let referrer ← referral.inviter
    match referrer with
    | none => .ret ()
    | some referrer => addSpot referrer referral_code
    register { params := params } code digest generated

/-! ## No new user is valid -/

/-- The errors of a user who is not an admin are never empty. -/
theorem errors_ne_nil {user : NewUser} (h : user.admin = false) : user.errors.Ends (· ≠ []) := by
  intro db db'
  change _ ≠ []
  simp [adminErrors, messageIf, h]

/-- `valid?` writes nothing. -/
theorem run_errors {user : NewUser} (h : user.admin = false) (db : Accounts) :
    ∃ errors, user.errors.run Accounts.exec db = (.ok errors, db) ∧ errors ≠ [] := by
  refine ⟨_, rfl, ?_⟩
  simp [adminErrors, messageIf, h]

/-- `referral.inviter`, in these tables. -/
def Accounts.inviter (db : Accounts) (referral : Referral) : Option User := referral.inviter_id.bind db.user

theorem run_inviter (referral : Referral) (db : Accounts) :
    referral.inviter.run Accounts.exec db = (.ok (db.inviter referral), db) := by
  unfold Referral.inviter Accounts.inviter
  cases referral.inviter_id <;> rfl

section
variable (digest : String → String) (generated : Nat) (params : UserParams) {referral_code : Option String}
  {db : Accounts} {referral : Referral}

/-- A code no row has: `nil` has no `inviter`. -/
theorem create_unknown (h : db.referral (castInteger referral_code) = none) :
    (UsersController.create digest generated params referral_code).run Accounts.exec db =
      (.error (.noMethodError "inviter"), db) := by
  simp [UsersController.create, select, Accounts.exec, h]

/-- The form is shown again with the errors, and nothing is written. -/
theorem run_register (user : NewUser) (h : user.admin = false) (code : Option Int) (db : Accounts) :
    ∃ messages, (register user code digest generated).run Accounts.exec db = (.ok ⟨none, .errors messages⟩, db) ∧
      (db.referralSpots code = [] → "Referral code is invalid." ∈ messages) := by
  obtain ⟨errors, hrun, herrors⟩ := run_errors h db
  refine ⟨errors ++ messageIf (db.referralSpots code).isEmpty "Referral code is invalid.", ?_, ?_⟩
  · refine (run_bind_ok Accounts.exec hrun _).trans ?_
    simp [herrors, spotsExist, select, Accounts.exec]
  · intro hnone
    simp [messageIf, hnone]

/-- A code whose inviter is no admin: the form is shown again with the errors. -/
theorem create_refused (hfound : db.referral (castInteger referral_code) = some referral)
    (h : ∀ referrer, db.inviter referral = some referrer → referrer.admin = false) :
    ∃ messages, (UsersController.create digest generated params referral_code).run Accounts.exec db =
        (.ok ⟨none, .errors messages⟩, db) ∧
      (db.referralSpots (castInteger referral_code) = [] → "Referral code is invalid." ∈ messages) := by
  obtain ⟨messages, hrun, hnone⟩ := run_register digest generated { params := params } rfl
    (castInteger referral_code) db
  refine ⟨messages, ?_, hnone⟩
  simp only [UsersController.create, select, bind_eq, query_bind, run_step, Accounts.exec, hfound]
  rw [run_bind_ok Accounts.exec (run_inviter referral db)]
  cases hinviter : db.inviter referral with
  | none => exact hrun
  | some referrer =>
    simp only [addSpot, h referrer hinviter]
    exact hrun

/-- For an admin's code a slot is added, whoever signs up, or there is an exception. -/
theorem create_admin (hfound : db.referral (castInteger referral_code) = some referral) {referrer : User}
    (hinviter : db.inviter referral = some referrer) (hadmin : referrer.admin = true) :
    (UsersController.create digest generated params referral_code).run Accounts.exec db = (.error .recordInvalid, db) ∨
    ((UsersController.create digest generated params referral_code).run Accounts.exec db).2 = db.exec (.insertReferral
      ⟨0, castInteger referral_code, some "noemail@noemail.com", some referrer.id, none⟩) := by
  simp only [UsersController.create, select, bind_eq, query_bind, run_step, Accounts.exec, hfound]
  rw [run_bind_ok Accounts.exec (run_inviter referral db)]
  simp only [hinviter, addSpot, hadmin, if_true, Referral.create!]
  split
  · right
    simp only [write, exec_bind, run_step]
    obtain ⟨messages, hrun, -⟩ := run_register digest generated { params := params } rfl
      (castInteger referral_code) (db.exec (.insertReferral
        ⟨0, castInteger referral_code, some "noemail@noemail.com", some referrer.id, none⟩))
    rw [hrun]
    rfl
  · left
    rfl

end

/-! ## What a sign-up writes -/

/-- A look, or a new slot. -/
def Stmt.AddsSpots : Stmt → Prop
  | .select _ | .insertReferral _ => True
  | .insertUser _ | .updateReferral _ _ => False

theorem only_errors (user : NewUser) : user.errors.Only Stmt.AddsSpots := by
  apply Only.bind
  · simp [select, Stmt.AddsSpots]
  · intro username_taken
    simp [select, Stmt.AddsSpots]

/-- No user is saved: the new one is not an admin. -/
theorem only_register (user : NewUser) (h : user.admin = false) (referral_code : Option Int) (digest : String → String)
    (generated : Nat) : (register user referral_code digest generated).Only Stmt.AddsSpots := by
  apply Only.bind_ends (only_errors user) (errors_ne_nil h)
  intro errors herrors
  simp [herrors, spotsExist, select, Stmt.AddsSpots]

theorem only_create (digest : String → String) (generated : Nat) (params : UserParams)
    (referral_code : Option String) :
    (UsersController.create digest generated params referral_code).Only Stmt.AddsSpots := by
  refine Only.bind ((only_query _ _).2 trivial) ?_
  intro found
  cases found with
  | none => trivial
  | some referral =>
    apply Only.bind
    · unfold Referral.inviter
      split <;> simp [select, Stmt.AddsSpots]
    · intro referrer
      have hregister := only_register { params := params } rfl (castInteger referral_code) digest generated
      cases referrer with
      | none => exact hregister
      | some referrer =>
        refine Only.bind ?_ fun _ => hregister
        unfold addSpot Referral.create!
        split
        · split <;> simp [write, Stmt.AddsSpots]
        · trivial

theorem users_exec {stmt : Stmt} (h : stmt.AddsSpots) (db : Accounts) : (db.exec stmt).users = db.users := by
  cases stmt <;> first | rfl | exact h.elim

theorem users_create (digest : String → String) (generated : Nat) (params : UserParams) (referral_code : Option String)
    (db : Accounts) :
    ((UsersController.create digest generated params referral_code).run Accounts.exec db).2.users = db.users :=
  (only_create digest generated params referral_code).run_frame (fun db _ h => users_exec h db) db

/-! ## A valid sign-up -/

/-- A form that keeps the rules for names and passwords, with a username and an
email nobody has, and a code with a free slot. -/
structure ValidSubmission (db : Accounts) (params : UserParams) (referral_code : Option String) : Prop where
  username : ∃ username, params.username = some username ∧ 5 ≤ username.length ∧ username.length ≤ 25 ∧
    username.toList.all usernameChar = true
  username_free : db.usernameTaken params.username = false
  email : ∃ email, params.email = some email ∧ emailFormat email = true ∧ email.length ≤ 255
  email_free : db.emailTaken params.email = false
  password : ∃ password, params.password = some password ∧ 6 ≤ password.length ∧
    params.password_confirmation = some password
  spot : db.referralSpots (castInteger referral_code) ≠ []

/-- A new user of the form is saved, not as an admin, and is logged in; one slot
of the code, which was free, is theirs. -/
def Accepted (db : Accounts) (params : UserParams) (referral_code : Option String)
    (result : Except Error Response × Accounts) : Prop :=
  ∃ user ∈ result.2.users, user ∉ db.users ∧ user.admin = false ∧
    params.username.map (·.toLower) = some user.username ∧ params.email.map (·.toLower) = some user.email ∧
    (∃ reply, result.1 = .ok ⟨some user.id, reply⟩) ∧
    ∃ spot ∈ db.referralSpots (castInteger referral_code),
      result.2.referrals.filter (·.invited_id = some user.id) = [{ spot with invited_id := some user.id }]

/-- Nobody is ever accepted. -/
theorem signup_not_accepted (digest : String → String) (generated : Nat) (db : Accounts) (params : UserParams)
    (referral_code : Option String) :
    ¬Accepted db params referral_code
      ((UsersController.create digest generated params referral_code).run Accounts.exec db) := by
  rintro ⟨user, hmem, hnew, -⟩
  rw [users_create] at hmem
  exact hnew hmem

/-- A user with a free slot under the code 12345. -/
def oneSpot : Accounts where
  users := [⟨⟨1, "analyst"⟩, "analyst@example.com", "digest", false⟩]
  referrals := [⟨1, some 12345, some "friend@example.com", some 1, none⟩]
  user_seq := 2
  referral_seq := 2

def validForm : UserParams := ⟨some "isnowvalid", some "andnowvalid@gmail.com", some "valid10151", some "valid10151"⟩

theorem validForm_valid : ValidSubmission oneSpot validForm (some "12345") where
  username := ⟨"isnowvalid", rfl, by decide, by decide, by rfl⟩
  username_free := by decide +kernel
  email := ⟨"andnowvalid@gmail.com", rfl, by rfl, by decide⟩
  email_free := by decide +kernel
  password := ⟨"valid10151", rfl, by decide, rfl⟩
  spot := by decide

/-- The form is valid, but the user is not: `admin` can't be blank. -/
theorem signup_refused :
    ¬∀ digest generated db params referral_code, ValidSubmission db params referral_code →
      Accepted db params referral_code
        ((UsersController.create digest generated params referral_code).run Accounts.exec db) := by
  intro h
  obtain ⟨user, hmem, hnew, -⟩ := h id 0 oneSpot validForm (some "12345") validForm_valid
  rw [users_create] at hmem
  exact hnew hmem

/-! ## A refused sign-up -/

/-- If no user is created, the form is shown again with the errors, among them
that of a code without a free slot, and no row of users or referrals is new or
changed. -/
def RefusedCleanly (db : Accounts) (referral_code : Option String) (result : Except Error Response × Accounts) : Prop :=
  result.2.users = db.users →
    (∃ messages, result.1 = .ok ⟨none, .errors messages⟩ ∧
      (db.referralSpots (castInteger referral_code) = [] → "Referral code is invalid." ∈ messages)) ∧
    result.2.referrals = db.referrals

/-- A refused sign-up leaves everything as it was if and only if there is a
referral with the code, and the first one's inviter is not an admin. -/
theorem refused_cleanly_iff (digest : String → String) (generated : Nat) (db : Accounts) (params : UserParams)
    (referral_code : Option String) :
    RefusedCleanly db referral_code
      ((UsersController.create digest generated params referral_code).run Accounts.exec db) ↔
    ∃ referral, db.referral (castInteger referral_code) = some referral ∧
      ∀ referrer, db.inviter referral = some referrer → referrer.admin = false := by
  constructor
  · intro h
    obtain ⟨⟨messages, hreply, -⟩, hreferrals⟩ := h (users_create digest generated params referral_code db)
    cases hfound : db.referral (castInteger referral_code) with
    | none =>
      rw [create_unknown digest generated params hfound] at hreply
      cases hreply
    | some referral =>
      refine ⟨referral, rfl, ?_⟩
      intro referrer hinviter
      cases hadmin : referrer.admin with
      | false => rfl
      | true =>
        rcases create_admin digest generated params hfound hinviter hadmin with hraised | hspot
        · rw [hraised] at hreply
          cases hreply
        · rw [hspot] at hreferrals
          simp [Accounts.exec] at hreferrals
  · rintro ⟨referral, hfound, hadmin⟩ -
    obtain ⟨messages, hrun, hnone⟩ := create_refused digest generated params hfound hadmin
    rw [hrun]
    exact ⟨⟨messages, rfl, hnone⟩, rfl⟩

/-- A code no referral has. -/
theorem unknown_code_raises :
    ¬∀ digest generated db params referral_code, RefusedCleanly db referral_code
      ((UsersController.create digest generated params referral_code).run Accounts.exec db) := by
  intro h
  have hclean := (h id 0 oneSpot validForm (some "54321")) (by rfl)
  have hunknown : oneSpot.referral (castInteger (some "54321")) = none := by rfl
  have hraised := create_unknown id 0 validForm hunknown
  rw [hraised] at hclean
  obtain ⟨⟨messages, hreply, -⟩, -⟩ := hclean
  cases hreply

/-! ## Concurrent sign-ups -/

/-- A sign-up with this code. -/
def SignsUp (code : Option Int) (p : Request Unit) : Prop :=
  ∃ digest generated params referral_code, castInteger referral_code = code ∧
    p = (UsersController.create digest generated params referral_code).bind fun _ => .ret ()

theorem only_signsUp {code : Option Int} {p : Request Unit} (h : SignsUp code p) : p.Only Stmt.AddsSpots := by
  obtain ⟨digest, generated, params, referral_code, -, rfl⟩ := h
  exact (only_create digest generated params referral_code).bind fun _ => trivial

section
variable {w : Watch Stmt} {code : Option Int}

/-- In any interleaving, every statement only looks or adds a slot. -/
theorem Reach.signUps {init : Accounts} {c : Config Stmt Accounts Error}
    (h : Reach Accounts.exec w (SignsUp code) Anytime (.idle init) c) :
    c.store.users = init.users ∧ ∀ t ∈ c.threads, t.prog.Only Stmt.AddsSpots :=
  h.only_inv (I := fun db => db.users = init.users) (fun _ => only_signsUp)
    (fun db _ hl hdb => (users_exec hl db).trans hdb) ⟨rfl, by simp [Config.idle]⟩

/-- However sign-ups with a code are interleaved, no more users are created than
the code has free slots, and no slot that is taken is given to another. -/
theorem invitations_not_exceeded {init : Accounts} {c : Config Stmt Accounts Error}
    (h : Reach Accounts.exec w (SignsUp code) Anytime (.idle init) c) :
    c.store.users.length ≤ init.users.length + (init.referralSpots code).length ∧
    ∀ r ∈ c.store.referrals, ∀ user_id, r.invited_id = some user_id →
      ∀ d, Reach Accounts.exec w (SignsUp code) Anytime c d → r ∈ d.store.referrals := by
  obtain ⟨husers, hthreads⟩ := Reach.signUps h
  refine ⟨by simp [husers], ?_⟩
  intro r hr user_id _ d hd
  refine (hd.only_inv (I := fun db => r ∈ db.referrals) (fun _ => only_signsUp) ?_ ⟨hr, hthreads⟩).1
  intro db stmt hstmt hmem
  cases stmt with
  | select query => exact hmem
  | insertReferral row => exact List.mem_append_left _ hmem
  | insertUser row => exact hstmt.elim
  | updateReferral id invited_id => exact hstmt.elim

end

/-- The valid form, sent twice. -/
def twoSignUps : List (Request Unit) :=
  List.replicate 2 ((UsersController.create id 0 validForm (some "12345")).bind fun _ => .ret ())

theorem twoSignUps_signUp : ∀ p ∈ twoSignUps, SignsUp (some 12345) p := by
  intro p hp
  exact ⟨id, 0, validForm, some "12345", by rfl, (List.mem_replicate.1 hp).2⟩

/-- A watch of nothing. -/
def unwatched : Watch Stmt := ⟨fun _ => false, fun _ => false, fun _ => false⟩

/-- Both forms are checked before either is answered. -/
theorem two_signUps_not_exceeded :
    ((started oneSpot twoSignUps).turns Accounts.exec unwatched
      (List.replicate 4 0 ++ List.replicate 20 1 ++ List.replicate 20 0)).store.users.length ≤ 1 + 1 :=
  (invitations_not_exceeded ((reach_started oneSpot twoSignUps_signUp).turns _)).1

end MyStockIQ.SignUp
