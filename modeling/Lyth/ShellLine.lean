/-
  THE WORDS OF A COMMAND LINE AND THE SHELL'S VARIABLES (`userland/shell/parser.c`, `userland/shell/shell.c`).

    1. THE PROGRAM.  `parser_parse_line` cuts a line into words: blanks end a word unless it began with a quote, a
       backslash takes the next character as it is, and what does not fit is dropped.  The variables are a table
       of 16 slots with a name of at most 15 characters.
    2. THE SPECIFICATION.  Words that are written in quotes are read back.  The table is a finite MAP.
    3. THE CRUX.  A slot is found by the name that is asked for, and holds the name cut off after 15 characters: the
       map is lost with the first longer name (`long_name_lost`).
-/
import Mathlib.Data.List.DropRight
import Lyth.Lib.Bytes
import Lyth.Ugdb

namespace Lyth.ShellLine

open Run Table Function
open Bytes (isDigit)
open Ugdb (Text)

/-! ## `parser_parse_line` -/

def isBlank (c : UInt8) : Bool := c = 32 || c = 9

/-- `skip_spaces`. -/
def skipSpaces (line : Text) : Text := line.dropWhile isBlank

/-- `tokens[argc][token_length++] = current`, where there is room. -/
def store (tokenMax : Nat) (token : Text) (current : UInt8) : Text :=
  if token.length < tokenMax - 1 then token ++ [current] else token

/-- The scan of one word: what was stored, and the rest of the line.  `quote` is 0 for a word without. -/
def readToken (quote : UInt8) (tokenMax : Nat) (token : Text) : Text → Text × Text
  | [] => (token, [])
  | current :: rest =>
    if current = 92 then
      match rest with
      | [] => (store tokenMax token current, [])
      | next :: rest => readToken quote tokenMax (store tokenMax token next) rest
    else if quote ≠ 0 ∧ current = quote then (token, rest)
    else if quote = 0 ∧ isBlank current then (token, current :: rest)
    else readToken quote tokenMax (store tokenMax token current) rest

/-- The words from here on, `maxArgs` at most. -/
def parseWords (tokenMax : Nat) : Nat → Text → List Text
  | 0, _ => []
  | maxArgs + 1, line =>
    match skipSpaces line with
    | [] => []
    | c :: rest =>
      let word := if c = 34 ∨ c = 39 then readToken c tokenMax [] rest else readToken 0 tokenMax [] (c :: rest)
      word.1 :: parseWords tokenMax maxArgs (skipSpaces word.2)

/-- `parser_parse_line(line, tokens, argv, max_args, token_max)`. -/
def parseLine (line : Text) (maxArgs tokenMax : Nat) : List Text := parseWords tokenMax maxArgs (skipSpaces line)

/-! ### Words in quotes -/

/-- A double quote or a backslash gets a backslash. -/
def escape (token : Text) : Text := token.flatMap fun c => if c = 34 ∨ c = 92 then [92, c] else [c]

/-- Each word in double quotes, after its blanks. -/
def writeLine : List (Text × Text) → Text
  | [] => []
  | (blanks, token) :: words => blanks ++ 34 :: (escape token ++ 34 :: writeLine words)

/-- The scan reads the word back and stops behind its quote. -/
theorem readToken_escape {tokenMax : Nat} (token rest acc : Text) (h : acc.length + token.length < tokenMax) :
    readToken 34 tokenMax acc (escape token ++ 34 :: rest) = (acc ++ token, rest) := by
  induction token generalizing acc with
  | nil =>
    unfold readToken
    simp [escape]
  | cons c token ih =>
    rw [List.length_cons] at h
    have hstore : store tokenMax acc c = acc ++ [c] := if_pos (by omega)
    have hnext := ih (acc ++ [c]) (by simp; omega)
    rw [List.append_assoc] at hnext
    by_cases hc : c = 34 ∨ c = 92
    · have hesc : escape (c :: token) = 92 :: c :: escape token := by simp [escape, hc]
      rw [hesc, List.cons_append, List.cons_append, readToken, if_pos rfl, hstore, hnext]
      rfl
    · have hesc : escape (c :: token) = c :: escape token := by simp [escape, hc]
      rw [not_or] at hc
      unfold readToken
      rw [hesc, List.cons_append]
      simp [hc, hstore, hnext]

theorem skipSpaces_blanks {blanks rest : Text} (h : blanks.all isBlank) :
    skipSpaces (blanks ++ rest) = skipSpaces rest := by
  rw [skipSpaces, List.dropWhile_append_of_pos (by simpa using h)]
  rfl

theorem skipSpaces_skipSpaces (line : Text) : skipSpaces (skipSpaces line) = skipSpaces line :=
  List.dropWhile_idempotent ..

theorem parseWords_skipSpaces {tokenMax maxArgs : Nat} {line : Text} :
    parseWords tokenMax maxArgs (skipSpaces line) = parseWords tokenMax maxArgs line := by
  cases maxArgs with
  | zero => rfl
  | succ maxArgs => rw [parseWords, parseWords, skipSpaces_skipSpaces]

/-- **Words that are written in quotes are read back**, whatever blanks stand before them. -/
theorem parse_quoted_words (words : List (Text × Text)) (maxArgs tokenMax : Nat) (hcount : words.length ≤ maxArgs)
    (hwords : ∀ w ∈ words, w.1.all isBlank ∧ w.2.length < tokenMax) :
    parseLine (writeLine words) maxArgs tokenMax = words.map Prod.snd := by
  rw [parseLine, parseWords_skipSpaces]
  induction words generalizing maxArgs with
  | nil =>
    cases maxArgs with
    | zero => rfl
    | succ maxArgs => rfl
  | cons w words ih =>
    obtain ⟨maxArgs, rfl⟩ : ∃ m, maxArgs = m + 1 := ⟨maxArgs - 1, by simp at hcount; omega⟩
    obtain ⟨hblanks, hlen⟩ := hwords w (.head _)
    have hskip : skipSpaces (writeLine (w :: words)) = 34 :: (escape w.2 ++ 34 :: writeLine words) :=
      skipSpaces_blanks hblanks
    rw [parseWords, hskip]
    dsimp only
    rw [if_pos (.inl rfl), readToken_escape _ _ _ (by simpa using hlen), parseWords_skipSpaces,
      ih maxArgs (by simpa using hcount) fun w hw => hwords w (.tail _ hw)]
    rfl

theorem parse_quoted_words_two :
    parseLine (writeLine [([32], [97, 34, 32]), ([9, 32], [])]) 2 4 = [[97, 34, 32], []] :=
  parse_quoted_words [([32], [97, 34, 32]), ([9, 32], [])] 2 4 (by decide) (by decide)

/-! ## The variables -/

abbrev envMax : Nat := 16
def envNameMax : Nat := 16
def envValueMax : Nat := 64

/-- An entry of `shell_env`. -/
structure EnvVar where
  used : Bool
  name : Text
  value : Text

abbrev Env := Fin envMax → EnvVar

/-- `copy_bounded`. -/
def copyBounded (src : Text) (size : Nat) : Text := src.take (size - 1)

def isEnvNameChar (c : UInt8) : Bool := decide (97 ≤ c ∧ c ≤ 122) || decide (65 ≤ c ∧ c ≤ 90) || isDigit c || c = 95

/-- The checks of `shell_env_set` on the name. -/
def validName (name : Text) : Bool := name ≠ [] && name.all isEnvNameChar && !name.head?.any isDigit

/-- `shell_env_find(name)`. -/
def envFind (env : Env) (name : Text) : Option (Fin envMax) :=
  firstIdx fun i => (env i).used && decide ((env i).name = name)

/-- `shell_env_get(name)`. -/
def envGet (env : Env) (name : Text) : Option Text := (envFind env name).map fun i => (env i).value

/-- `shell_env_set(name, value)`. -/
def envSet (env : Env) (name value : Text) : Bool × Env :=
  if validName name then
    match envFind env name <|> firstIdx fun i => !(env i).used with
    | none => (false, env)
    | some i => (true, update env i ⟨true, copyBounded name envNameMax, copyBounded value envValueMax⟩)
  else (false, env)

/-- `shell_env_unset(name)`. -/
def envUnset (env : Env) (name : Text) : Bool × Env :=
  match envFind env name with
  | none => (false, env)
  | some i => (true, update env i ⟨false, [], []⟩)

inductive EnvCall
  | set (name value : Text)
  | unset (name : Text)

def step (env : Env) : EnvCall → Bool × Env
  | .set name value => envSet env name value
  | .unset name => envUnset env name

def EnvCall.name : EnvCall → Text
  | .set name _ => name
  | .unset name => name

/-- A name that is set fits a slot. -/
def Short (_ : Env) : EnvCall → Prop
  | .set name _ => name.length < envNameMax
  | .unset _ => True

/-- No two slots in use hold one name. -/
def Distinct (env : Env) : Prop := ∀ i j, (env i).used → (env j).used → (env i).name = (env j).name → i = j

/-- `shell_env` before the first call. -/
def noEnv : Env := fun _ => ⟨false, [], []⟩

/-- The state after the calls. -/
abbrev after (calls : List EnvCall) : Env := (exec step noEnv calls).2

/-- A call changes the value of its own name alone, an unset takes it away, and what was set is there until the
    name is used again. -/
structure IsMap (calls : List EnvCall) : Prop where
  distinct : Distinct (after calls)
  other : ∀ earlier c later, calls = earlier ++ c :: later → ∀ name, name ≠ c.name →
    envGet (step (after earlier) c).2 name = envGet (after earlier) name
  unset : ∀ earlier name later, calls = earlier ++ .unset name :: later →
    (envUnset (after earlier) name).1 → envGet (envUnset (after earlier) name).2 name = none
  set : ∀ earlier name value later, calls = earlier ++ .set name value :: later → value.length < envValueMax →
    (envSet (after earlier) name value).1 → (∀ c ∈ later, c.name ≠ name) → envGet (after calls) name = some value

section

variable {env : Env} {name value : Text} {i : Fin envMax} {v : EnvVar}

theorem envFind_some (h : envFind env name = some i) : (env i).used ∧ (env i).name = name := by
  simpa using firstIdx_some h

theorem envFind_none (h : envFind env name = none) (i : Fin envMax) (hused : (env i).used) : (env i).name ≠ name := by
  simpa [hused] using firstIdx_eq_none.mp h i

/-- A slot that never holds the name is not looked at. -/
theorem envGet_update_other (hold : (env i).used → (env i).name ≠ name) (hnew : v.used → v.name ≠ name) :
    envGet (update env i v) name = envGet env name := by
  have hfind : envFind (update env i v) name = envFind env name := by
    refine congrArg firstIdx (funext fun j => ?_)
    rcases eq_or_ne j i with rfl | hne
    · rw [update_self]
      cases hv : v.used <;> cases he : (env j).used <;> simp_all
    · rw [update_of_ne hne]
  rw [envGet, envGet, hfind]
  cases h : envFind env name with
  | none => rfl
  | some j =>
    have hne : j ≠ i := by
      rintro rfl
      exact hold (envFind_some h).1 (envFind_some h).2
    rw [Option.map_some, Option.map_some, update_of_ne hne]

/-- The slot that is written holds the name already, or no slot does. -/
theorem envSet_cases (hd : Distinct env) (name value : Text) : envSet env name value = (false, env) ∨
    ∃ i, envSet env name value =
        (true, update env i ⟨true, copyBounded name envNameMax, copyBounded value envValueMax⟩) ∧
      ((env i).used → (env i).name = name) ∧ ∀ j, j ≠ i → (env j).used → (env j).name ≠ name := by
  unfold envSet
  split
  · cases hfind : envFind env name with
    | some i =>
      obtain ⟨hused, hname⟩ := envFind_some hfind
      exact .inr ⟨i, rfl, fun _ => hname, fun j hne hj heq => hne (hd j i hj hused (heq.trans hname.symm))⟩
    | none =>
      cases hfree : firstIdx fun i => !(env i).used with
      | none => exact .inl rfl
      | some i =>
        have hunused := firstIdx_some hfree
        refine .inr ⟨i, rfl, fun hused => ?_, fun j _ => envFind_none hfind j⟩
        rw [hused] at hunused
        cases hunused
  · exact .inl rfl

theorem copyBounded_of_lt {src : Text} {size : Nat} (h : src.length < size) : copyBounded src size = src :=
  List.take_of_length_le (by omega)

section

variable (h : Distinct env)
include h

theorem Distinct.update (hv : v.used → ∀ j, j ≠ i → (env j).used → (env j).name ≠ v.name) :
    Distinct (update env i v) := by
  intro j k hj hk heq
  simp only [Function.update_apply] at hj hk heq
  split at hj <;> split at hk <;> simp_all only [ne_eq, ite_true, ite_false]
  · exact absurd rfl (hv trivial k ‹_› hk)
  · exact absurd heq (hv trivial j ‹_› hj)
  · exact h j k hj hk heq

theorem Distinct.step (c : EnvCall) (hc : Short env c) : Distinct (step env c).2 := by
  cases c with
  | set name value =>
    rcases envSet_cases h name value with hset | ⟨i, hset, -, hother⟩
    · rwa [ShellLine.step, hset]
    · rw [ShellLine.step, hset, copyBounded_of_lt hc]
      exact h.update fun _ => hother
  | unset name =>
    simp only [ShellLine.step, envUnset]
    split
    · exact h
    · exact h.update fun hv => Bool.noConfusion hv

theorem Distinct.other (c : EnvCall) (hc : Short env c) (hne : name ≠ c.name) :
    envGet (ShellLine.step env c).2 name = envGet env name := by
  cases c with
  | set name' value =>
    rcases envSet_cases h name' value with hset | ⟨i, hset, hself, -⟩
    · rw [ShellLine.step, hset]
    · rw [ShellLine.step, hset, copyBounded_of_lt hc]
      exact envGet_update_other (fun hused => (hself hused).trans_ne hne.symm) fun _ => hne.symm
  | unset name' =>
    simp only [ShellLine.step, envUnset]
    split
    · rfl
    · rename_i i hfind
      exact envGet_update_other (fun _ => (envFind_some hfind).2.trans_ne hne.symm) fun hv => Bool.noConfusion hv

theorem Distinct.get_unset (hok : (envUnset env name).1) :
    envGet (envUnset env name).2 name = none := by
  unfold envUnset at *
  cases hfind : envFind env name with
  | none => simp [hfind] at hok
  | some i =>
    refine Option.map_eq_none_iff.mpr (firstIdx_eq_none.mpr fun j => ?_)
    rcases eq_or_ne j i with rfl | hne
    · simp
    · by_contra hj
      simp [hne] at hj
      exact hne (h j i hj.1 (envFind_some hfind).1 (hj.2.trans (envFind_some hfind).2.symm))

theorem Distinct.get_set (hname : name.length < envNameMax) (hvalue : value.length < envValueMax)
    (hok : (envSet env name value).1) : envGet (envSet env name value).2 name = some value := by
  rcases envSet_cases h name value with hset | ⟨i, hset, -, hother⟩
  · rw [hset] at hok
    cases hok
  rw [hset, copyBounded_of_lt hname, copyBounded_of_lt hvalue, envGet, envFind, firstIdx_unique (i := i) (by simp)]
  · simp
  · intro j hj
    by_contra hne
    simp [hne] at hj
    exact hother j hne hj.1 hj.2

end

/-- What a name has is not changed by calls with other names. -/
theorem Distinct.get_exec (calls : List EnvCall) (h : Distinct env) (hshort : Guarded ShellLine.step Short env calls)
    (hne : ∀ c ∈ calls, c.name ≠ name) : envGet (exec ShellLine.step env calls).2 name = envGet env name := by
  induction calls generalizing env with
  | nil => rfl
  | cons c calls ih =>
    refine (ih (h.step c hshort.1) hshort.2 fun c' hc' => hne c' (.tail _ hc')).trans ?_
    exact h.other c hshort.1 (hne c (.head _)).symm

theorem distinct_after {calls : List EnvCall} (hshort : Guarded step Short noEnv calls) : Distinct (after calls) := by
  have hstart : Distinct noEnv := fun _ _ h => Bool.noConfusion h
  exact exec_inv (fun env c (h : Distinct env) => h.step c) calls _ hstart hshort

end

/-- **The variables are a map**, after every history in which the names that are set fit their slot. -/
theorem env_is_map (calls : List EnvCall) (hshort : Guarded step Short noEnv calls) : IsMap calls := by
  refine ⟨distinct_after hshort, ?_, ?_, ?_⟩
  · rintro earlier c later rfl name hne
    obtain ⟨hearlier, hc⟩ := (Guarded_append ..).mp hshort
    exact (distinct_after hearlier).other c hc.1 hne
  · rintro earlier name later rfl hok
    exact (distinct_after ((Guarded_append ..).mp hshort).1).get_unset hok
  · rintro earlier name value later rfl hvalue hok hlater
    obtain ⟨hearlier, hc, hrest⟩ := (Guarded_append ..).mp hshort
    have hd := distinct_after hearlier
    rw [after, exec_append]
    exact ((hd.step _ hc).get_exec later hrest hlater).trans (hd.get_set hc hvalue hok)

theorem env_is_map_three : IsMap [.set [72] [47], .set [85] [48], .unset [72]] :=
  env_is_map _ ⟨by simp [Short, envNameMax], by simp [Short, envNameMax], trivial, trivial⟩

/-- A name of 16 characters is set and not found. -/
theorem long_name_lost : ¬IsMap [.set (List.replicate 16 65) [49]] := by
  intro h
  have hset := h.set [] (List.replicate 16 65) [49] [] rfl (by decide) (by decide) (by simp)
  revert hset
  decide

end Lyth.ShellLine
