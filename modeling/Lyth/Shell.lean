/-
  WHO A SHELL SESSION IS (`userland/shell/shell.c`).

    1. THE PROGRAM.  The account commands of the shell: `su`, `login`, `logout`, `passwd`, `useradd`, `userdel`,
       `usermod`, `groupadd`, `groupdel`, `gpasswd`.  They work on the user database and on the identity of the
       task that runs the shell.  `su` and `login` ask for the password of the account, unless it has none, and
       then set the identity with `task_force_identity`, which checks nothing.
    2. THE SPECIFICATION.  A session whose effective uid is not 0 becomes root only at a `su` or a `login` whose
       check against root's stored password succeeded (`Authenticated`).
    3. THE CRUX.  `step_cases` says what a command of a session without privilege can do.  `logout` is the
       exception: it goes back to root, from any account and without a password, as its help text says.
-/
import Lyth.TaskEffects
import Lyth.Ugdb

namespace Lyth.Shell

open Bytes Run Ugdb Word
open Lyth.Task (Creds credsAfter)

/-! ## The commands -/

/-- The database, and the identity of the shell's task. -/
structure Session where
  db : Db
  creds : Creds

/-- `task_force_identity(uid, gid)`. -/
def Session.force (s : Session) (uid gid : UInt32) : Session :=
  { s with creds := credsAfter s.creds (.forceIdentity uid gid) }

/-- The database after a function of `ugdb.c`; `none` is an error, which leaves it as it is. -/
def Session.update (s : Session) (db : Option Db) : Session := { s with db := db.getD s.db }

/-- `shell_read_secret_line(buf, 16)`, for what was typed up to the end of the line. -/
def readSecretLine (typed : Text) : Text := (typed.take 15).takeWhile (· ≠ 0)

/-- The number that the digits of `su <uid>` stand for, as an `unsigned int`. -/
def parseUid (digits : Text) : UInt32 := digits.foldl (fun uid c => uid * 10 + (c - 48).toUInt32) 0

/-- `parser_parse_integer(text, fallback)`. -/
def parseInteger (text : Text) (fallback : Int) : Int :=
  let digits := (text.dropWhile fun c => c = 32 || c = 9).takeWhile isDigit
  let value := digits.foldl (fun value c => int32 (value * 10 + (c - 48).toNat)) 0
  if digits = [] ∨ value ≤ 0 then fallback else value

/-- `(unsigned int)`. -/
def toUnsigned (i : Int) : UInt32 := UInt32.ofNat (i % 2 ^ 32).toNat

/-- The account that `su` switches to: by name, by a built-in name in any case, or by number. -/
def suTarget (db : Db) (arg : Text) : Option (Fin maxUsers) :=
  (findByName db arg) <|>
  (if strEqualsIgnoreCase arg (text "root") then findByUid db 0
    else if strEqualsIgnoreCase arg (text "user") then findByUid db 1 else none) <|>
  (if arg.all isDigit && decide (arg ≠ []) then findByUid db (parseUid arg) else none)

/-- The prompt of `su` and `login`: it appears only if the account has a password. -/
def authenticate (db : Db) (uid : UInt32) (typed : Text) : Bool :=
  checkPassword db uid [] || checkPassword db uid (readSecretLine typed)

/-- `cmd_su`. -/
def cmdSu (s : Session) (argv : List Text) (typed : Text) : Session :=
  match argv with
  | _ :: arg :: _ =>
    match suTarget s.db arg with
    | none => s
    | some i =>
      let user := s.db.users i
      if decide (user.uid ≠ s.creds.euid) && !authenticate s.db user.uid typed then s
      else s.force user.uid user.gid
  | _ => s

/-- `cmd_login`. -/
def cmdLogin (s : Session) (argv : List Text) (typed : Text) : Session :=
  match argv with
  | _ :: arg :: _ =>
    match findByName s.db arg with
    | none => s
    | some i =>
      let u := s.db.users i
      if !authenticate s.db u.uid typed then s else s.force u.uid u.gid
  | _ => s

/-- `cmd_logout`. -/
def cmdLogout (s : Session) : Session := if s.creds.euid = 0 then s else s.force 0 0

/-- The account whose password `passwd` changes. -/
def passwdTarget (s : Session) (argv : List Text) : Option UInt32 :=
  match argv, decide (s.creds.euid = 0) with
  | _ :: arg :: _, true => (findByName s.db arg).map fun i => (s.db.users i).uid
  | _, _ => (findByUid s.db s.creds.euid).map fun _ => s.creds.euid

/-- `cmd_passwd`. -/
def cmdPasswd (s : Session) (argv : List Text) (old new confirm : Text) : Session :=
  match passwdTarget s argv with
  | none => s
  | some targetUid =>
    if decide (s.creds.euid ≠ 0) && !checkPassword s.db targetUid (readSecretLine old) then s
    else if readSecretLine new ≠ readSecretLine confirm then s
    else s.update (setPassword s.db targetUid (readSecretLine new))

/-- The options of `useradd`. -/
def useraddOptions : List Text → UInt32 × UInt32 → UInt32 × UInt32
  | opt :: value :: rest, (uid, gid) =>
    if opt = text "-u" then useraddOptions rest (toUnsigned (parseInteger value (int32 uid.toNat)), gid)
    else if opt = text "-g" then useraddOptions rest (uid, toUnsigned (parseInteger value (int32 gid.toNat)))
    else useraddOptions (value :: rest) (uid, gid)
  | _, ids => ids

/-- `cmd_useradd`. -/
def cmdUseradd (s : Session) (argv : List Text) : Session :=
  if s.creds.euid ≠ 0 then s
  else
    match argv with
    | _ :: name :: rest =>
      if (findByName s.db name).isSome then s
      else
        let (newUid, newGid) := useraddOptions rest (nextUid s.db, nextGid s.db)
        if newUid = 0xFFFFFFFF then s
        else if (findByUid s.db newUid).isSome then s
        else
          let s := if (findGroupByGid s.db newGid).isSome then s else s.update (addGroup s.db newGid name)
          s.update (addUser s.db newUid newGid name)
    | _ => s

/-- `cmd_userdel`; `-r` is about the home directory. -/
def cmdUserdel (s : Session) (argv : List Text) : Session :=
  if s.creds.euid ≠ 0 then s
  else if argv.length < 2 then s
  else
    match (argv.getLast?).bind (findByName s.db) with
    | none => s
    | some i =>
      let u := s.db.users i
      if u.uid = 0 then s
      else if u.uid = s.creds.euid then s
      else s.update (delUser s.db u.uid)

/-- The options of `usermod`; a group that does not exist ends the command. -/
def usermodOptions (uid : UInt32) : List Text → Session → Session
  | opt :: value :: rest, s =>
    if opt = text "-n" then usermodOptions uid rest (s.update (setUserName s.db uid value))
    else if opt = text "-g" then
      let gid := toUnsigned (parseInteger value (-1))
      if (findGroupByGid s.db gid).isNone then s
      else usermodOptions uid rest (s.update (setUserGid s.db uid gid))
    else if opt = text "-p" then usermodOptions uid rest (s.update (setPassword s.db uid value))
    else usermodOptions uid (value :: rest) s
  | _, s => s

/-- `cmd_usermod`. -/
def cmdUsermod (s : Session) (argv : List Text) : Session :=
  if s.creds.euid ≠ 0 then s
  else if argv.length < 4 then s
  else
    match (argv.getLast?).bind (findByName s.db) with
    | none => s
    | some i => usermodOptions (s.db.users i).uid (argv.tail.dropLast) s

/-- `cmd_groupadd`. -/
def cmdGroupadd (s : Session) (argv : List Text) : Session :=
  if s.creds.euid ≠ 0 then s
  else
    match argv with
    | _ :: name :: rest =>
      if (findGroupByName s.db name).isSome then s
      else
        let newGid := match rest with
          | opt :: value :: _ =>
            if opt = text "-g" then toUnsigned (parseInteger value (int32 (nextGid s.db).toNat)) else nextGid s.db
          | _ => nextGid s.db
        if (findGroupByGid s.db newGid).isSome then s else s.update (addGroup s.db newGid name)
    | _ => s

/-- `cmd_groupdel`. -/
def cmdGroupdel (s : Session) (argv : List Text) : Session :=
  if s.creds.euid ≠ 0 then s
  else
    match argv with
    | _ :: name :: _ =>
      match findGroupByName s.db name with
      | none => s
      | some i => s.update (delGroup s.db (s.db.groups i).gid)
    | _ => s

/-- `cmd_gpasswd`. -/
def cmdGpasswd (s : Session) (argv : List Text) : Session :=
  match argv with
  | _ :: opt :: user :: group :: _ =>
    if opt ≠ text "-a" ∧ opt ≠ text "-d" then s
    else if s.creds.euid ≠ 0 then s
    else
      match findByName s.db user, findGroupByName s.db group with
      | some i, some g =>
        let uid := (s.db.users i).uid
        let gid := (s.db.groups g).gid
        s.update (if opt = text "-a" then groupAddMember s.db gid uid else groupRemoveMember s.db gid uid)
      | _, _ => s
  | _ => s

/-- A command line, with what is typed at its prompts.  No other command touches the database or the
    identity. -/
inductive Command
  | su (argv : List Text) (typed : Text)
  | login (argv : List Text) (typed : Text)
  | logout
  | passwd (argv : List Text) (old new confirm : Text)
  | useradd (argv : List Text)
  | userdel (argv : List Text)
  | usermod (argv : List Text)
  | groupadd (argv : List Text)
  | groupdel (argv : List Text)
  | gpasswd (argv : List Text)
  | other

def next (s : Session) : Command → Session
  | .su argv typed => cmdSu s argv typed
  | .login argv typed => cmdLogin s argv typed
  | .logout => cmdLogout s
  | .passwd argv old new confirm => cmdPasswd s argv old new confirm
  | .useradd argv => cmdUseradd s argv
  | .userdel argv => cmdUserdel s argv
  | .usermod argv => cmdUsermod s argv
  | .groupadd argv => cmdGroupadd s argv
  | .groupdel argv => cmdGroupdel s argv
  | .gpasswd argv => cmdGpasswd s argv
  | .other => s

def step (s : Session) (c : Command) : Unit × Session := ((), next s c)

/-! ## Specification -/

/-- What was typed at the prompt of a command that switches to an account. -/
def Command.typed : Command → Option Text
  | .su _ typed => some typed
  | .login _ typed => some typed
  | _ => none

/-- The command is a `su` or a `login`, and root has no password, or its password was typed. -/
def Authenticated (s : Session) (c : Command) : Prop :=
  ∃ typed, c.typed = some typed ∧
    (storedPassword s.db 0 = some [] ∨ storedPassword s.db 0 = some (readSecretLine typed))

/-! ## What a command can do -/

section

variable {s : Session} {typed : Text}

/-- A switch that asks for a password has checked it. -/
theorem authenticate_iff {uid : UInt32} : authenticate s.db uid typed ↔
    storedPassword s.db uid = some [] ∨ storedPassword s.db uid = some (readSecretLine typed) := by
  unfold authenticate
  rw [Bool.or_eq_true, checkPassword_iff, checkPassword_iff]
  tauto

/-- **`su`** leaves the identity, or takes the one of an account: its own, or one whose password was checked. -/
theorem cmdSu_cases (s : Session) (argv : List Text) (typed : Text) : cmdSu s argv typed = s ∨
    ∃ uid gid, cmdSu s argv typed = s.force uid gid ∧ (uid = s.creds.euid ∨ authenticate s.db uid typed) := by
  unfold cmdSu
  split
  · split
    · exact .inl rfl
    rename_i i _
    dsimp only
    split
    · exact .inl rfl
    rename_i hcheck
    refine .inr ⟨_, _, rfl, ?_⟩
    by_cases hown : (s.db.users i).uid = s.creds.euid
    · exact .inl hown
    · simpa [hown] using hcheck
  · exact .inl rfl

/-- **`login`** always checks. -/
theorem cmdLogin_cases (s : Session) (argv : List Text) (typed : Text) : cmdLogin s argv typed = s ∨
    ∃ uid gid, cmdLogin s argv typed = s.force uid gid ∧ authenticate s.db uid typed := by
  unfold cmdLogin
  split
  · split
    · exact .inl rfl
    · dsimp only
      split
      · exact .inl rfl
      · rename_i hcheck
        exact .inr ⟨_, _, rfl, by simpa using hcheck⟩
  · exact .inl rfl

variable (heuid : s.creds.euid ≠ 0)
include heuid

/-- **`passwd`** without privilege changes the own password. -/
theorem cmdPasswd_cases (argv : List Text) (old new confirm : Text) :
    cmdPasswd s argv old new confirm = s ∨
      ∃ password, cmdPasswd s argv old new confirm = s.update (setPassword s.db s.creds.euid password) := by
  have htarget : ∀ uid, passwdTarget s argv = some uid → uid = s.creds.euid := by
    intro uid h
    unfold passwdTarget at h
    rw [decide_eq_false heuid] at h
    obtain ⟨_, _, huid⟩ := Option.map_eq_some_iff.mp (by split at h <;> first | contradiction | exact h)
    exact huid.symm
  unfold cmdPasswd
  split
  · exact .inl rfl
  rename_i uid huid
  split
  · exact .inl rfl
  split
  · exact .inl rfl
  · rw [htarget uid huid]
    exact .inr ⟨_, rfl⟩

/-- **What a command does to a session without privilege**: nothing, or it is `logout`, or a switch to an account
    that is its own or whose password was checked, or it changes the own password. -/
theorem step_cases (c : Command) : next s c = s ∨
    (c = .logout ∧ (next s c) = s.force 0 0) ∨
    (∃ typed uid gid, c.typed = some typed ∧ next s c = s.force uid gid ∧
      (uid = s.creds.euid ∨ authenticate s.db uid typed)) ∨
    ∃ password, next s c = s.update (setPassword s.db s.creds.euid password) := by
  cases c with
  | su argv typed =>
    rcases cmdSu_cases s argv typed with heq | ⟨uid, gid, heq, hcheck⟩
    · exact .inl heq
    · exact .inr (.inr (.inl ⟨typed, uid, gid, rfl, heq, hcheck⟩))
  | login argv typed =>
    rcases cmdLogin_cases s argv typed with heq | ⟨uid, gid, heq, hcheck⟩
    · exact .inl heq
    · exact .inr (.inr (.inl ⟨typed, uid, gid, rfl, heq, .inr hcheck⟩))
  | logout => exact .inr (.inl ⟨rfl, if_neg heuid⟩)
  | passwd argv old new confirm =>
    rcases cmdPasswd_cases heuid argv old new confirm with heq | hown
    · exact .inl heq
    · exact .inr (.inr (.inr hown))
  -- the others are for root
  | useradd argv => exact .inl (if_pos heuid)
  | userdel argv => exact .inl (if_pos heuid)
  | usermod argv => exact .inl (if_pos heuid)
  | groupadd argv => exact .inl (if_pos heuid)
  | groupdel argv => exact .inl (if_pos heuid)
  | gpasswd argv =>
    refine .inl ?_
    show cmdGpasswd s argv = s
    unfold cmdGpasswd
    split
    · simp only [if_pos heuid, ite_self]
    · rfl
  | other => exact .inl rfl

/-- **Becoming root**, one command. -/
theorem root_cases {c : Command} (hroot : (next s c).creds.euid = 0) :
    c = .logout ∨ Authenticated s c := by
  rcases step_cases heuid c with hsame | ⟨hlogout, _⟩ | ⟨typed, uid, gid, htyped, heq, hcheck⟩ | ⟨_, heq⟩
  · rw [hsame] at hroot
    exact absurd hroot heuid
  · exact .inl hlogout
  · rw [heq] at hroot
    have huid : uid = 0 := hroot
    rcases hcheck with hown | hcheck
    · exact absurd (hown.symm.trans huid) heuid
    · rw [huid] at hcheck
      exact .inr ⟨typed, htyped, authenticate_iff.mp hcheck⟩
  · rw [heq] at hroot
    exact absurd hroot heuid

/-- **Root's password**, one command. -/
theorem root_password_kept (c : Command) :
    storedPassword (next s c).db 0 = storedPassword s.db 0 := by
  rcases step_cases heuid c with hsame | ⟨_, heq⟩ | ⟨_, _, _, _, heq, _⟩ | ⟨password, heq⟩
  · rw [hsame]
  · rw [heq]
    rfl
  · rw [heq]
    rfl
  · rw [heq]
    show storedPassword ((setPassword s.db s.creds.euid password).getD s.db) 0 = _
    cases hset : setPassword s.db s.creds.euid password with
    | none => rfl
    | some db => exact storedPassword_setPassword hset (Ne.symm heuid)

end

/-! ## The results -/

/-- **Becoming root.**  From every database and in every sequence of commands, a command after which the
    effective uid of the session is 0, and was not before, is a `su` or `login` with root's password, or
    without one if root has none, or it is `logout`. -/
theorem becomes_root_only_by_password (s : Session) (commands : List Command) (c : Command)
    (heuid : (exec step s commands).2.creds.euid ≠ 0)
    (hroot : (step (exec step s commands).2 c).2.creds.euid = 0) :
    Authenticated (exec step s commands).2 c ∨ c = .logout :=
  (root_cases heuid hroot).symm

/-- The command is no `logout` and does not give the password. -/
def Harmless (password : Text) (c : Command) : Prop :=
  c ≠ .logout ∧ ∀ typed, c.typed = some typed → readSecretLine typed ≠ password

/-- **A session without privilege stays without**, and root's password stays what it is, whatever the session does
    except to log out or to type that password. -/
theorem never_root {s : Session} {password : Text} (heuid : s.creds.euid ≠ 0) (hset : password ≠ [])
    (hroot : storedPassword s.db 0 = some password) (commands : List Command)
    (h : ∀ c ∈ commands, Harmless password c) :
    (exec step s commands).2.creds.euid ≠ 0 ∧ storedPassword (exec step s commands).2.db 0 = some password := by
  have hstep : ∀ s c, (s.creds.euid ≠ 0 ∧ storedPassword s.db 0 = some password) → Harmless password c →
      (step s c).2.creds.euid ≠ 0 ∧ storedPassword (step s c).2.db 0 = some password := by
    rintro s c ⟨heuid, hroot⟩ ⟨hlogout, htyped⟩
    refine ⟨fun hzero => ?_, (root_password_kept heuid c).trans hroot⟩
    rcases root_cases heuid hzero with h | ⟨typed, hc, hempty | hsame⟩
    · exact hlogout h
    · exact hset (Option.some.inj (hroot.symm.trans hempty))
    · exact htyped typed hc (Option.some.inj (hroot.symm.trans hsame)).symm
  exact exec_inv hstep commands s ⟨heuid, hroot⟩ (guarded_of_forall (fun c hc _ => h c hc) s)

/-- The built-in accounts, root with a password, and a session of `user`. -/
def userSession : Session where
  db :=
    { users := fun i =>
        if i = 0 then { used := true, uid := 0, gid := 0, name := text "root", password := text "toor" }
        else if i = 1 then { used := true, uid := 1, gid := 1, name := text "user", password := [] }
        else { used := false, uid := 0, gid := 0, name := [], password := [] }
      groups := fun _ => { used := false, gid := 0, name := [], members := [] } }
  creds := { Creds.root with uid := 1, gid := 1, euid := 1, egid := 1 }

theorem becomes_root_by_su : Authenticated userSession (.su [text "su", text "root"] (text "toor")) ∨
      (Command.su [text "su", text "root"] (text "toor")) = .logout :=
  becomes_root_only_by_password userSession [] (.su [text "su", text "root"] (text "toor"))
    (by decide +kernel) (by decide +kernel)

/-- Wrong passwords for root by name, by a name in capitals and by number, a new password of its own, the commands
    that are for root, and a switch to its own account with that password. -/
def vainRun : List Command :=
  [.su [text "su", text "root"] (text "root"), .su [text "su", text "ROOT"] [], .login [text "login", text "root"]
    (text "toor!"), .su [text "su", text "0"] (text "0"), .passwd [text "passwd", text "root"] [] (text "new") (text "new"),
    .usermod [text "usermod", text "-p", text "x", text "root"], .useradd [text "useradd", text "eve", text "-u", text "0"],
    .login [text "login", text "user"] (text "new")]

theorem never_root_vainRun : (∀ c ∈ vainRun, Harmless (text "toor") c) ∧
    storedPassword (exec step userSession vainRun).2.db 1 = some (text "new") ∧
    (exec step userSession vainRun).2.creds.euid ≠ 0 ∧
      storedPassword (exec step userSession vainRun).2.db 0 = some (text "toor") := by
  have h : ∀ c ∈ vainRun, Harmless (text "toor") c := by
    simp only [vainRun, List.forall_mem_cons]
    refine ⟨?_, ?_, ?_, ?_, ?_, ?_, ?_, ?_, by simp⟩ <;>
      refine ⟨Command.noConfusion, fun typed htyped => ?_⟩ <;> cases htyped <;> decide +kernel
  exact ⟨h, by decide +kernel, never_root (by decide) (by decide +kernel) (by decide +kernel) _ h⟩

/-- `logout` makes it root without a password. -/
theorem logout_becomes_root : userSession.creds.euid ≠ 0 ∧ (step userSession .logout).2.creds.euid = 0 ∧
    ¬Authenticated userSession .logout := by
  refine ⟨by decide, by decide, ?_⟩
  rintro ⟨typed, htyped, _⟩
  cases htyped

end Lyth.Shell
