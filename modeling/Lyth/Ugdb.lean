/-
  The user and group database (`kernel/ugdb.c`): two tables of 8 entries, searched from entry 0.

  Names and passwords are C strings, here the bytes before the terminating 0; `ugdb_str_copy` keeps the first 15
  of them.  A stored password that is empty grants access whatever was typed.

  Identifiers are used again.  Groups hold the identifiers of their members, and deleting an account does not
  take its identifier out of them: a NEW account can find itself in a group (`recycled_uid_in_wheel`).
-/
import Lyth.Lib.Run
import Lyth.Lib.Table

namespace Lyth.Ugdb

open Run Table Function

/-- A C string: its bytes before the 0. -/
abbrev Text := List UInt8

/-- A literal of the source. -/
def text (s : String) : Text := s.toList.map fun c => c.toNat.toUInt8

abbrev maxUsers : Nat := 8
abbrev maxGroups : Nat := 8
def nameMax : Nat := 16

/-- `ugdb_user_t`. -/
structure User where
  used : Bool
  uid : UInt32
  gid : UInt32
  name : Text
  password : Text
deriving DecidableEq

/-- `ugdb_group_t`; `members` are the first `member_count` of `member_uids`. -/
structure Group where
  used : Bool
  gid : UInt32
  name : Text
  members : List UInt32
deriving DecidableEq

structure Db where
  users : Fin maxUsers → User
  groups : Fin maxGroups → Group

def Db.setUser (db : Db) (i : Fin maxUsers) (u : User) : Db := { db with users := update db.users i u }

def Db.setGroup (db : Db) (i : Fin maxGroups) (g : Group) : Db := { db with groups := update db.groups i g }

/-- `ugdb_str_copy(dst, src, max)`. -/
def strCopy (src : Text) (max : Nat) : Text := src.take (max - 1)

/-- `ugdb_find_by_uid(uid)`. -/
def findByUid (db : Db) (uid : UInt32) : Option (Fin maxUsers) :=
  firstIdx fun i => (db.users i).used && decide ((db.users i).uid = uid)

/-- `ugdb_find_by_name(name)`. -/
def findByName (db : Db) (name : Text) : Option (Fin maxUsers) :=
  firstIdx fun i => (db.users i).used && decide ((db.users i).name = name)

/-- `ugdb_find_group_by_gid(gid)`. -/
def findGroupByGid (db : Db) (gid : UInt32) : Option (Fin maxGroups) :=
  firstIdx fun i => (db.groups i).used && decide ((db.groups i).gid = gid)

/-- `ugdb_find_group_by_name(name)`. -/
def findGroupByName (db : Db) (name : Text) : Option (Fin maxGroups) :=
  firstIdx fun i => (db.groups i).used && decide ((db.groups i).name = name)

/-- `ugdb_add_group(gid, name)`; `none` is -1. -/
def addGroup (db : Db) (gid : UInt32) (name : Text) : Option Db :=
  (firstIdx fun i => !(db.groups i).used).map fun i =>
    db.setGroup i { used := true, gid, name := strCopy name nameMax, members := [] }

/-- `ugdb_add_user(uid, gid, name)`. -/
def addUser (db : Db) (uid gid : UInt32) (name : Text) : Option Db :=
  (firstIdx fun i => !(db.users i).used).map fun i =>
    db.setUser i { used := true, uid, gid, name := strCopy name nameMax, password := [] }

/-- The search of `ugdb_next_uid` and `ugdb_next_gid`. -/
def nextFree (taken : UInt32 → Bool) : Nat → UInt32 → UInt32
  | 0, _ => 0xFFFFFFFF
  | fuel + 1, c => if taken c then nextFree taken fuel (c + 1) else c

/-- `ugdb_next_uid()`. -/
def nextUid (db : Db) : UInt32 := nextFree (fun c => (findByUid db c).isSome) (0xFFFFFFFE - 1000) 1000

/-- `ugdb_next_gid()`. -/
def nextGid (db : Db) : UInt32 := nextFree (fun c => (findGroupByGid db c).isSome) (0xFFFFFFFE - 1000) 1000

/-- `ugdb_del_user(uid)`. -/
def delUser (db : Db) (uid : UInt32) : Option Db :=
  if uid = 0 then none else (findByUid db uid).map fun i => db.setUser i { db.users i with used := false }

/-- `ugdb_del_group(gid)`. -/
def delGroup (db : Db) (gid : UInt32) : Option Db :=
  if gid = 0 then none else (findGroupByGid db gid).map fun i => db.setGroup i { db.groups i with used := false }

/-- `ugdb_set_password(uid, password)`. -/
def setPassword (db : Db) (uid : UInt32) (password : Text) : Option Db :=
  (findByUid db uid).map fun i => db.setUser i { db.users i with password := strCopy password 16 }

/-- `ugdb_check_password(uid, password)`. -/
def checkPassword (db : Db) (uid : UInt32) (password : Text) : Bool :=
  match findByUid db uid with
  | none => false
  | some i => decide ((db.users i).password = []) || decide ((db.users i).password = password)

/-- `ugdb_set_user_gid(uid, new_gid)`. -/
def setUserGid (db : Db) (uid newGid : UInt32) : Option Db :=
  (findByUid db uid).map fun i => db.setUser i { db.users i with gid := newGid }

/-- `ugdb_set_user_name(uid, new_name)`. -/
def setUserName (db : Db) (uid : UInt32) (newName : Text) : Option Db :=
  (findByUid db uid).map fun i => db.setUser i { db.users i with name := strCopy newName nameMax }

/-- `ugdb_group_add_member(gid, uid)`. -/
def groupAddMember (db : Db) (gid uid : UInt32) : Option Db :=
  match findGroupByGid db gid with
  | none => none
  | some i =>
    if uid ∈ (db.groups i).members then some db
    else if (db.groups i).members.length ≥ maxUsers then none
    else some (db.setGroup i { db.groups i with members := (db.groups i).members ++ [uid] })

/-- `ugdb_group_remove_member(gid, uid)`. -/
def groupRemoveMember (db : Db) (gid uid : UInt32) : Option Db :=
  match findGroupByGid db gid with
  | none => none
  | some i =>
    if uid ∈ (db.groups i).members then
      some (db.setGroup i { db.groups i with members := (db.groups i).members.erase uid })
    else none

/-! ## Passwords -/

/-- The entry a search by identifier finds. -/
theorem found {n : Nat} {used : Fin n → Bool} {key : Fin n → UInt32} {id : UInt32} {i : Fin n}
    (h : firstIdx (fun i => used i && decide (key i = id)) = some i) : used i = true ∧ key i = id := by
  simpa using firstIdx_some h

/-- The stored password of an account: that of the first entry with its identifier. -/
def storedPassword (db : Db) (uid : UInt32) : Option Text := (findByUid db uid).map fun i => (db.users i).password

/-- **What a check that succeeds has checked.** -/
theorem checkPassword_iff {db : Db} {uid : UInt32} {password : Text} :
    checkPassword db uid password ↔
      storedPassword db uid = some [] ∨ storedPassword db uid = some password := by
  unfold checkPassword storedPassword
  cases findByUid db uid with
  | none => simp
  | some i => simp only [Option.map_some, Bool.or_eq_true, decide_eq_true_eq, Option.some.injEq]

/-- A new password is that of its account only. -/
theorem storedPassword_setPassword {db db' : Db} {uid other : UInt32} {password : Text}
    (h : setPassword db uid password = some db') (hne : other ≠ uid) :
    storedPassword db' other = storedPassword db other := by
  obtain ⟨i, hi, rfl⟩ := Option.map_eq_some_iff.mp h
  have hfind : findByUid (db.setUser i { db.users i with password := strCopy password 16 }) other = findByUid db other := by
    refine congrArg firstIdx (funext fun j => ?_)
    by_cases hj : j = i
    · simp [Db.setUser, hj]
    · simp [Db.setUser, hj]
  unfold storedPassword
  rw [hfind]
  cases hother : findByUid db other with
  | none => rfl
  | some j =>
    have hj : j ≠ i := by
      rintro rfl
      exact hne ((found hother).2.symm.trans (found hi).2)
    simp [Db.setUser, hj]

/-! ## Recycled identifiers -/

/-- `ugdb_group_is_member(gid, uid)`. -/
def groupIsMember (db : Db) (gid uid : UInt32) : Bool :=
  match findGroupByGid db gid with
  | none => false
  | some i => decide (uid ∈ (db.groups i).members)

/-- The calls that add and delete. -/
inductive Call
  | addUser (uid gid : UInt32) (name : Text)
  | delUser (uid : UInt32)
  | addGroup (gid : UInt32) (name : Text)
  | delGroup (gid : UInt32)
  | groupAddMember (gid uid : UInt32)
  | groupRemoveMember (gid uid : UInt32)
deriving DecidableEq

def call (db : Db) : Call → Option Db
  | .addUser uid gid name => addUser db uid gid name
  | .delUser uid => delUser db uid
  | .addGroup gid name => addGroup db gid name
  | .delGroup gid => delGroup db gid
  | .groupAddMember gid uid => groupAddMember db gid uid
  | .groupRemoveMember gid uid => groupRemoveMember db gid uid

def step (db : Db) (c : Call) : Int × Db :=
  match call db c with
  | none => (-1, db)
  | some db' => (0, db')

/-- `ugdb_init()`. -/
def ugdbInit : Db :=
  (exec step ⟨fun _ => ⟨false, 0, 0, [], []⟩, fun _ => ⟨false, 0, [], []⟩⟩
    [.addGroup 0 (text "wheel"), .addGroup 1 (text "users"), .addUser 0 0 (text "root"),
      .addUser 1 1 (text "user")]).2

/-- Someone has an account with the identifier. -/
def HasAccount (db : Db) (uid : UInt32) : Prop := ∃ i, (db.users i).used ∧ (db.users i).uid = uid

/-- A group in use with the identifier `gid` has the member `uid`. -/
def Lists (db : Db) (gid uid : UInt32) : Prop :=
  ∃ i, (db.groups i).used ∧ (db.groups i).gid = gid ∧ uid ∈ (db.groups i).members

/-- Accounts leave their groups before they are deleted, and members have accounts. -/
def Tidy (db : Db) : Call → Prop
  | .delUser uid => ∀ i, (db.groups i).used → uid ∉ (db.groups i).members
  | .groupAddMember _ uid => HasAccount db uid
  | _ => True

instance (db : Db) (c : Call) : Decidable (Tidy db c) := by
  cases c <;> unfold Tidy HasAccount <;> infer_instance

/-- A NEW user or group: whoever a later run finds in a group, that run has added. -/
def NothingInherited (db : Db) : Prop :=
  (∀ gid name db', addUser db (nextUid db) gid name = some db' → ∀ later gid,
    groupIsMember (exec step db' later).2 gid (nextUid db) → .groupAddMember gid (nextUid db) ∈ later) ∧
  ∀ name db', addGroup db (nextGid db) name = some db' → ∀ later uid,
    groupIsMember (exec step db' later).2 (nextGid db) uid → .groupAddMember (nextGid db) uid ∈ later

section

variable {db : Db} {gid uid : UInt32}

/-- What one call can do: write a user entry that is free or that it deletes, or a group entry whose members are
    old ones and the one it adds. -/
theorem step_cases (db : Db) (c : Call) :
    (step db c).2 = db ∨
    (∃ i u, (step db c).2 = db.setUser i u ∧ ((db.users i).used → c = .delUser (db.users i).uid)) ∨
    ∃ i g, (step db c).2 = db.setGroup i g ∧ (g.used → ∀ uid ∈ g.members, c = .groupAddMember g.gid uid ∨
      (db.groups i).used ∧ (db.groups i).gid = g.gid ∧ uid ∈ (db.groups i).members) := by
  unfold step
  split
  · exact .inl rfl
  rename_i db' hcall
  cases c with
  | addUser uid gid name =>
    obtain ⟨i, hi, rfl⟩ := Option.map_eq_some_iff.mp hcall
    have hfree := firstIdx_some hi
    exact .inr (.inl ⟨i, _, rfl, fun hused => by simp [hused] at hfree⟩)
  | delUser uid =>
    obtain ⟨-, hcall⟩ := Option.ite_none_left_eq_some.mp hcall
    obtain ⟨i, hi, rfl⟩ := Option.map_eq_some_iff.mp hcall
    exact .inr (.inl ⟨i, _, rfl, fun _ => by rw [(found hi).2]⟩)
  | addGroup gid name =>
    obtain ⟨i, -, rfl⟩ := Option.map_eq_some_iff.mp hcall
    exact .inr (.inr ⟨i, _, rfl, fun _ uid hmem => absurd hmem List.not_mem_nil⟩)
  | delGroup gid =>
    obtain ⟨-, hcall⟩ := Option.ite_none_left_eq_some.mp hcall
    obtain ⟨i, -, rfl⟩ := Option.map_eq_some_iff.mp hcall
    exact .inr (.inr ⟨i, _, rfl, fun hused => Bool.noConfusion hused⟩)
  | groupAddMember gid uid =>
    simp only [call, groupAddMember] at hcall
    split at hcall
    · cases hcall
    rename_i i hi
    split_ifs at hcall <;> cases hcall
    · exact .inl rfl
    · refine .inr (.inr ⟨i, _, rfl, fun hused uid' hmem => ?_⟩)
      rcases List.mem_append.mp hmem with hmem | hmem
      · exact .inr ⟨hused, rfl, hmem⟩
      · rw [List.mem_singleton.mp hmem, (found hi).2]
        exact .inl rfl
  | groupRemoveMember gid uid =>
    simp only [call, groupRemoveMember] at hcall
    split at hcall
    · cases hcall
    split_ifs at hcall
    cases hcall
    exact .inr (.inr ⟨_, _, rfl, fun hused uid' hmem => .inr ⟨hused, rfl, List.mem_of_mem_erase hmem⟩⟩)

theorem groupIsMember_lists (h : groupIsMember db gid uid) : Lists db gid uid := by
  unfold groupIsMember at h
  split at h
  · cases h
  · rename_i i hfind
    exact ⟨i, (found hfind).1, (found hfind).2, of_decide_eq_true h⟩

/-- A member of a group after one entry is replaced: one of the new entry, or one before. -/
theorem lists_setGroup {i : Fin maxGroups} {g : Group} (h : Lists (db.setGroup i g) gid uid) :
    g.used ∧ g.gid = gid ∧ uid ∈ g.members ∨ Lists db gid uid := by
  obtain ⟨j, hj⟩ := h
  simp only [Db.setGroup, update_apply] at hj
  split at hj
  · exact .inl hj
  · exact .inr ⟨j, hj⟩

/-- A member is one that the call adds, or was one before. -/
theorem step_lists {c : Call} (h : Lists (step db c).2 gid uid) :
    c = .groupAddMember gid uid ∨ Lists db gid uid := by
  rcases step_cases db c with hsame | ⟨i, u, hset, -⟩ | ⟨i, g, hset, hg⟩
  · exact .inr (hsame ▸ h)
  · exact .inr (hset ▸ h :)
  · rw [hset] at h
    rcases lists_setGroup h with ⟨hused, rfl, hmem⟩ | hbefore
    · exact (hg hused uid hmem).imp id fun hold => ⟨i, hold⟩
    · exact .inr hbefore

theorem exec_lists (calls : List Call) (h : Lists (exec step db calls).2 gid uid) :
    .groupAddMember gid uid ∈ calls ∨ Lists db gid uid := by
  induction calls generalizing db with
  | nil => exact .inr h
  | cons c calls ih =>
    rcases ih h with hlater | hnow
    · exact .inl (.tail _ hlater)
    · rcases step_lists hnow with rfl | hbefore
      · exact .inl (.head _)
      · exact .inr hbefore

/-- An account stays until it is deleted. -/
theorem step_account {c : Call} (h : HasAccount db uid) (hc : c ≠ .delUser uid) :
    HasAccount (step db c).2 uid := by
  rcases step_cases db c with hsame | ⟨i, u, hset, hu⟩ | ⟨i, g, hset, -⟩
  · rwa [hsame]
  · obtain ⟨j, hused, rfl⟩ := h
    have hne : j ≠ i := by
      rintro rfl
      exact hc (hu hused)
    rw [hset]
    exact ⟨j, by simp [Db.setUser, hne, hused]⟩
  · rw [hset]
    exact h

/-- **In a tidy run every member of a group has an account.** -/
theorem members_have_accounts (calls : List Call) (htidy : Guarded step Tidy ugdbInit calls) :
    ∀ gid uid, Lists (exec step ugdbInit calls).2 gid uid → HasAccount (exec step ugdbInit calls).2 uid := by
  refine exec_inv (fun db c (hinv : ∀ gid uid, Lists db gid uid → HasAccount db uid) hok gid uid hnow => ?_)
    calls _ (fun gid uid h => ?_) htidy
  · rcases step_lists hnow with rfl | hbefore
    · exact step_account hok (by simp)
    · refine step_account (hinv gid uid hbefore) ?_
      rintro rfl
      obtain ⟨i, hused, -, hmem⟩ := hbefore
      exact hok i hused hmem
  · obtain ⟨i, -, -, hmem⟩ := h
    have hnone : ∀ i, (ugdbInit.groups i).members = [] := by decide
    rw [hnone i] at hmem
    cases hmem

end

/-- The search ends at a candidate that is free, if one of the first `fuel` is. -/
theorem nextFree_free {taken : UInt32 → Bool} {k fuel : Nat} (hk : k < fuel) {c : UInt32}
    (h : taken (c + UInt32.ofNat k) = false) : taken (nextFree taken fuel c) = false := by
  induction fuel generalizing k c with
  | zero => omega
  | succ fuel ih =>
    unfold nextFree
    split
    · cases k with
      | zero => simp_all
      | succ k =>
        refine @ih k (by omega) (c + 1) ?_
        rwa [UInt32.add_assoc, UInt32.add_comm 1, ← UInt32.ofNat_one, ← UInt32.ofNat_add]
    · simp_all

/-- **The identifier found is not in use**: the 8 entries cannot take the first 9 candidates. -/
theorem nextFree_ne {used : Fin 8 → Bool} {key : Fin 8 → UInt32} {find : UInt32 → Option (Fin 8)}
    (hfind : ∀ c, find c = firstIdx fun i => used i && decide (key i = c)) {i : Fin 8} (hi : used i = true) :
    key i ≠ nextFree (fun c => (find c).isSome) (0xFFFFFFFE - 1000) 1000 := by
  obtain ⟨k, hk, hfree⟩ : ∃ k < 9, (find (1000 + UInt32.ofNat k)).isSome = false := by
    by_contra hall
    push Not at hall
    choose slot hslot using fun k : Fin 9 => Option.isSome_iff_exists.mp (Bool.of_not_eq_false (hall k k.isLt))
    have hkey : ∀ k, key (slot k) = 1000 + UInt32.ofNat k := fun k => (found (hfind _ ▸ hslot k)).2
    have hinj : ∀ i j : Fin 9, 1000 + UInt32.ofNat i = 1000 + UInt32.ofNat j → i = j := by decide
    have hle := Fintype.card_le_of_injective slot fun i j heq => hinj i j (by rw [← hkey i, ← hkey j, heq])
    simp at hle
  have hnone := @nextFree_free (fun c => (find c).isSome) k (0xFFFFFFFE - 1000) (by omega) 1000 hfree
  rw [Option.isSome_eq_false_iff, Option.isNone_iff_eq_none, hfind, firstIdx_eq_none] at hnone
  simpa [hi] using hnone i

/-- **A fresh user is in no group and a fresh group is empty**, in every tidy run. -/
theorem fresh_accounts (calls : List Call) (htidy : Guarded step Tidy ugdbInit calls) :
    NothingInherited (exec step ugdbInit calls).2 := by
  have haccounts := members_have_accounts calls htidy
  generalize (exec step ugdbInit calls).2 = db at haccounts
  constructor
  · intro gid' name db' hadd later gid h
    refine (exec_lists later (groupIsMember_lists h)).resolve_right fun hlisted => ?_
    obtain ⟨i, -, rfl⟩ := Option.map_eq_some_iff.mp hadd
    obtain ⟨j, hused, huid⟩ := haccounts gid _ hlisted
    exact @nextFree_ne _ (fun i => (db.users i).uid) (findByUid db) (fun _ => rfl) j hused huid
  · intro name db' hadd later uid h
    refine (exec_lists later (groupIsMember_lists h)).resolve_right fun hlisted => ?_
    obtain ⟨i, -, rfl⟩ := Option.map_eq_some_iff.mp hadd
    rcases lists_setGroup hlisted with hnew | ⟨j, hused, hgid, -⟩
    · exact absurd hnew.2.2 List.not_mem_nil
    · exact @nextFree_ne _ (fun i => (db.groups i).gid) (findGroupByGid db) (fun _ => rfl) j hused hgid

theorem fresh_accounts_after_cleanup : NothingInherited (exec step ugdbInit [.addUser 1000 1 (text "ann"),
    .groupAddMember 0 1000, .groupRemoveMember 0 1000, .delUser 1000]).2 :=
  fresh_accounts _ (by decide)

/-- User 1000 is deleted while a member of wheel; the next account is user 1000 again, and in wheel. -/
theorem recycled_uid_in_wheel : ¬NothingInherited (exec step ugdbInit [.addUser 1000 1 (text "ann"),
    .groupAddMember 0 1000, .delUser 1000]).2 := by
  intro h
  have huid : nextUid (exec step ugdbInit [.addUser 1000 1 (text "ann"), .groupAddMember 0 1000,
      .delUser 1000]).2 = 1000 := by
    show nextFree _ (4294966293 + 1) 1000 = 1000
    rw [nextFree, if_neg (by decide)]
  have hin := h.1 1 (text "bob") _ (by rw [huid]; rfl) [] 0 (by rw [huid]; decide)
  cases hin

end Lyth.Ugdb
