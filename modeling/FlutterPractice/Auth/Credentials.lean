import FlutterPractice.Dart.Text

/-! # Sign-up and login

Both screens validate the typed texts as they are. Sign-up passes on trimmed
texts, login does not: the email pattern has no white space, so the password
alone decides whether the two screens pass on the same credentials.
-/

namespace FlutterPractice.Auth

open Dart RegularExpression

def asciiLetters : List Char := charRange 'a' 'z' ++ charRange 'A' 'Z'

/-- `[a-zA-Z0-9._%+-]+@[a-zA-Z0-9.-]+\.[a-zA-Z]{2,}` -/
def emailPattern : RegularExpression Char :=
  oneOrMore (oneOf (asciiLetters ++ charRange '0' '9' ++ ['.', '_', '%', '+', '-'])) * char '@' *
    oneOrMore (oneOf (asciiLetters ++ charRange '0' '9' ++ ['.', '-'])) * char '.' *
      twoOrMore (oneOf asciiLetters)

/-- A validator of a text that is required: an error message, or `none`. -/
def required (missing : String) (check : String → Option String) : Option String → Option String
  | none => some missing
  | some value => if value = "" then some missing else check value

def checkEmail (value : String) : Option String :=
  if hasMatch emailPattern value then none else some "Enter a valid email"

def checkPassword (value : String) : Option String :=
  if length value < 6 then some "Password must be at least 6 characters" else none

/-- What is passed to the authentication service. -/
structure Credentials where
  email : String
  password : String
  deriving DecidableEq

namespace SignUpScreen

structure Form where
  name : String
  email : String
  password : String

def validateName : Option String → Option String :=
  required "Please enter your name" fun _ => none

def validateEmail : Option String → Option String := required "Please enter your email" checkEmail

def validatePassword : Option String → Option String :=
  required "Please enter your password" checkPassword

def validate (form : Form) : Bool :=
  validateName form.name = none ∧ validateEmail form.email = none ∧
    validatePassword form.password = none

/-- The toast of a rejected form, or what `createUserWithEmailAndPassword` is called with. -/
def signup (form : Form) : Except String Credentials :=
  if form.email = "" ∨ form.password = "" ∨ form.name = "" then
    .error "Name, Email and Password must not be empty"
  else .ok ⟨trim form.email, trim form.password⟩

end SignUpScreen

namespace LoginScreen

structure Form where
  email : String
  password : String

def validateEmail : Option String → Option String := required "Please enter your email" checkEmail

def validatePassword : Option String → Option String :=
  required "Please enter your password" checkPassword

def validate (form : Form) : Bool :=
  validateEmail form.email = none ∧ validatePassword form.password = none

/-- What `signInWithEmailAndPassword` is called with. -/
def logIn (form : Form) : Credentials := ⟨form.email, form.password⟩

end LoginScreen

/-- The same texts typed into the fields of the other screen. -/
def SignUpScreen.Form.toLogin (form : SignUpScreen.Form) : LoginScreen.Form :=
  ⟨form.email, form.password⟩

theorem required_eq_none {missing : String} {check : String → Option String} {value : String} :
    required missing check (some value) = none ↔ value ≠ "" ∧ check value = none := by
  rw [required]
  split <;> simp [*]

theorem checkEmail_eq_none {value : String} :
    checkEmail value = none ↔ hasMatch emailPattern value = true := by
  simp [checkEmail]

theorem checkPassword_eq_none {value : String} : checkPassword value = none ↔ 6 ≤ length value := by
  simp [checkPassword]

theorem not_isWhitespace_email : emailPattern.letters.any isWhitespace = false := by
  decide +kernel

theorem SignUpScreen.validate_iff {form : SignUpScreen.Form} : SignUpScreen.validate form = true ↔
    form.name ≠ "" ∧ LoginScreen.validate form.toLogin = true := by
  simp [validate, LoginScreen.validate, validateName, validateEmail, validatePassword,
    LoginScreen.validateEmail, LoginScreen.validatePassword, required_eq_none, Form.toLogin]

theorem LoginScreen.validate_iff {form : LoginScreen.Form} : LoginScreen.validate form = true ↔
    hasMatch emailPattern form.email = true ∧ form.email ≠ "" ∧ form.password ≠ "" ∧
      6 ≤ length form.password := by
  simp only [validate, validateEmail, validatePassword, required_eq_none, checkEmail_eq_none,
    checkPassword_eq_none, decide_eq_true_eq]
  tauto

theorem SignUpScreen.signup_eq_ok {form : SignUpScreen.Form} {sent : Credentials} :
    signup form = .ok sent ↔ (form.email ≠ "" ∧ form.password ≠ "" ∧ form.name ≠ "") ∧
      sent = ⟨trim form.email, trim form.password⟩ := by
  rw [signup]
  split
  · rename_i h
    simp only [reduceCtorEq, false_iff]
    rintro ⟨⟨hemail, hpassword, hname⟩, -⟩
    exact h.elim hemail fun h => h.elim hpassword hname
  · rename_i h
    rw [Except.ok.injEq, eq_comm, iff_and_self]
    exact fun _ => by simpa only [not_or] using h

theorem trim_email {text : String} (h : hasMatch emailPattern text = true) : trim text = text :=
  trim_eq_self_iff.mpr (trimmed_of_hasMatch not_isWhitespace_email h)

/-- Login passes on what sign-up did iff the password has no white space around it. -/
theorem logIn_agrees_iff (form : SignUpScreen.Form) (hvalid : SignUpScreen.validate form = true)
    {sent : Credentials} (hsent : SignUpScreen.signup form = .ok sent) :
    LoginScreen.validate form.toLogin = true ∧ LoginScreen.logIn form.toLogin = sent ∧
        6 ≤ length sent.password ↔
      Trimmed form.password := by
  obtain ⟨-, hlogin⟩ := SignUpScreen.validate_iff.mp hvalid
  obtain ⟨-, rfl⟩ := SignUpScreen.signup_eq_ok.mp hsent
  obtain ⟨hemail, -, -, hlength⟩ := LoginScreen.validate_iff.mp hlogin
  rw [← trim_eq_self_iff]
  constructor
  · rintro ⟨-, hsame, -⟩
    exact (congrArg Credentials.password hsame).symm
  · intro hpassword
    refine ⟨hlogin, ?_, ?_⟩
    · exact Credentials.mk.injEq _ _ _ _ ▸ ⟨(trim_email hemail).symm, hpassword.symm⟩
    · rw [hpassword]
      exact hlength

theorem logIn_agrees_secret :
    LoginScreen.validate ⟨"a@b.co", "secret"⟩ = true ∧
      LoginScreen.logIn ⟨"a@b.co", "secret"⟩ = ⟨"a@b.co", trim "secret"⟩ ∧
        6 ≤ length (trim "secret") := by
  let form : SignUpScreen.Form := ⟨"Ann", "a@b.co", "secret"⟩
  have hvalid : SignUpScreen.validate form = true := by decide +kernel
  have hsent : SignUpScreen.signup form = .ok ⟨trim "a@b.co", trim "secret"⟩ := by decide +kernel
  have htrim : trim "a@b.co" = "a@b.co" := by decide +kernel
  have hagrees := (logIn_agrees_iff form hvalid hsent).mpr (by decide)
  rwa [htrim] at hagrees

/-- The account is made without the blank behind the password, and login keeps it. -/
theorem logIn_blank_not_agrees :
    SignUpScreen.validate ⟨"Ann", "a@b.co", "secret "⟩ = true ∧
      SignUpScreen.signup ⟨"Ann", "a@b.co", "secret "⟩ = .ok ⟨"a@b.co", "secret"⟩ ∧
        LoginScreen.validate ⟨"a@b.co", "secret "⟩ = true ∧
          LoginScreen.logIn ⟨"a@b.co", "secret "⟩ ≠ ⟨"a@b.co", "secret"⟩ := by
  decide +kernel

end FlutterPractice.Auth
