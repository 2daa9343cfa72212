/-
  THE FLAT STORE UNDER FAILING ALLOCATIONS (`fs_write`, `fs_name_at` of `fs/fs.c`).

    1. THE PROGRAM.  `fs_write` takes the slot of the name or a new one, asks for a block for the NAME
       if the slot is new, frees the old data unless it appends, and asks for a block for the DATA.
       Either request may be refused (`Alloc`); a slot in use may then have the null pointer as name.
    2. THE SPECIFICATION (`Kept`).  A negative answer leaves every file as it was, every slot in use has
       a name, and so `fs_name_at` reaches every file before its first null pointer.
    3. THE CRUX.  Whatever happens, at most one slot changes, and a changed slot shows unless an
       earlier slot has the same name (`contents_put`): so a failure is harmless only if it comes before
       the slot is touched, or if the file was what the failed call has left.
-/
import Lyth.Ramfs
import Lyth.Lib.Word

namespace Lyth.FlatStore

open Table Vfs Word Function

/-! ## The program -/

/-- `fs_writable_entry_t` in use: the name and the data, if they are not null. -/
structure Entry where
  name : Option Text
  data : Option (List UInt8)
deriving DecidableEq

/-- `writable[]`. -/
abbrev Store := Fin 32 → Option Entry

/-- Which of its requests `kmalloc` grants. -/
structure Alloc where
  name : Bool
  data : Bool

def Store.put (st : Store) (i : Fin 32) (e : Entry) : Store := update st i (some e)

/-- The slot is in use under `name`. -/
def Store.named (st : Store) (name : Text) (i : Fin 32) : Bool := (st i).any (·.name = some name)

/-- The slot that a search for `name` finds. -/
def Store.entryOf (st : Store) (name : Text) : Option (Fin 32) := firstIdx (st.named name)

/-- The bytes that a slot holds. -/
def Store.bytesAt (st : Store) (i : Fin 32) : List UInt8 := ((st i).bind Entry.data).getD []

variable (files : List (Text × List UInt8))

/-- What is stored under `name`: a slot in use, or else the read-only table. -/
def contents (st : Store) (name : Text) : Option (List UInt8) :=
  match st.entryOf name with
  | some i => some (st.bytesAt i)
  | none => files.lookup name

/-- `fs_name_at`. -/
def fsNameAt (st : Store) (index : Nat) : Option Text :=
  if index < files.length then (files[index]?).map Prod.fst
  else (((List.finRange 32).filterMap st)[index - files.length]?).bind Entry.name

/-- The slot that `fs_write` works on, the one of `name` or a free one, and its data. -/
def writeSlot (st : Store) (name : Text) (append : Bool) : Option (Fin 32 × Option (List UInt8)) :=
  match st.entryOf name with
  | some i => some (i, (st i).bind Entry.data)
  | none => if append then none else (firstIdx fun i => (st i).isNone).map fun i => (i, none)

/-- The name that the slot then has: a new slot gets a block of 64 bytes for it, or the null pointer. -/
def slotName (a : Alloc) (st : Store) (name : Text) : Option Text :=
  if (st.entryOf name).isSome then some name
  else if a.name then some (name.take (Ramfs.writeNameMax - 1)) else none

/-- The block of an append: `new_size` bytes, the old ones and behind them the new ones; indices are
    `unsigned int`. -/
def joined (old new : List UInt8) : List UInt8 :=
  (List.range (u32 (old.length + new.length))).map fun k =>
    if k < old.length then
      if k + 2 ^ 32 < old.length + new.length then new.getD (k + 2 ^ 32 - old.length) 0 else old.getD k 0
    else new.getD (k - old.length) 0

/-- The bytes that the caller hands over. -/
def given (src : Option (Nat → UInt8)) (size : UInt32) : List UInt8 :=
  (List.range size.toNat).map (src.getD fun _ => 0)

/-- `fs_write`; `src` is `none` for the null pointer. -/
def fsWrite (a : Alloc) (st : Store) (name : Text) (src : Option (Nat → UInt8)) (size : UInt32)
    (append : Bool) : Int × Store :=
  if name = [] then (-1, st)
  else if src = none ∧ 0 < size then (-1, st)
  else
    match writeSlot st name append with
    | none => (-1, st)
    | some (i, old) =>
      let put := fun data => st.put i ⟨slotName a st name, data⟩
      match append, old with
      | true, some old =>
        let new := joined old (given src size)
        if a.data then (int32 new.length, put (some new)) else (-1, st)
      | _, _ =>
        if size = 0 then (0, put none)
        else if a.data then (int32 size.toNat, put (some (given src size))) else (-1, put none)

/-! ## Specification -/

/-- Every slot in use has a name. -/
def Named (st : Store) : Prop := ∀ i e, st i = some e → e.name.isSome

/-- `fs_name_at` gives every file, before it gives the null pointer. -/
def Enumerated (st : Store) : Prop :=
  ∀ name, (contents files st name).isSome → ∃ k, fsNameAt files st k = some name ∧
    ∀ j ≤ k, (fsNameAt files st j).isSome

/-- What a call should leave: after a negative answer the same files; names for all slots in use. -/
def Kept (st : Store) (r : Int × Store) : Prop :=
  (r.1 < 0 → ∀ name, contents files r.2 name = contents files st name) ∧
    Named r.2 ∧ Enumerated files r.2

/-- The slot `i` holds, or hides, the bytes `d` of the file `name` already: an earlier slot has the
    name, or the file consists of these bytes. -/
def Shown (st : Store) (i : Fin 32) (name : Text) (d : List UInt8) : Prop :=
  (∃ j < i, st.named name j) ∨ contents files st name = some d

/-- The name that a granted slot has. -/
def storedName (st : Store) (name : Text) : Text :=
  if (st.entryOf name).isSome then name else name.take (Ramfs.writeNameMax - 1)

/-- What the call would leave in the slot is an `int` count, or is there already. -/
def Fits (st : Store) (i : Fin 32) (name : Text) (d : List UInt8) : Prop :=
  d.length < 2 ^ 31 ∨ Shown files st i name d

/-- The call does no harm to the slot `i` with the data `old`: a new slot gets its name; the data of a
    write that does not append gets its block, or the file was empty before; the new size is an `int`. -/
def HarmlessAt (a : Alloc) (st : Store) (name : Text) (src : Option (Nat → UInt8)) (size : UInt32)
    (append : Bool) (i : Fin 32) (old : Option (List UInt8)) : Prop :=
  ((st.entryOf name).isSome ∨ a.name) ∧
    match append, old with
    | true, some old => a.data → Fits files st i (storedName st name) (joined old (given src size))
    | _, _ => size ≠ 0 → if a.data then Fits files st i (storedName st name) (given src size)
        else Shown files st i (storedName st name) []

/-- **When a call does no harm**: it takes no slot, or does none to the one it takes. -/
def Harmless (a : Alloc) (st : Store) (name : Text) (src : Option (Nat → UInt8)) (size : UInt32)
    (append : Bool) : Prop :=
  name ≠ [] → (src = none → size = 0) → ∀ i old, writeSlot st name append = some (i, old) →
    HarmlessAt files a st name src size append i old

/-! ## One slot changes -/

variable {a : Alloc}

section

variable {files} {st : Store} {i : Fin 32} {name : Text}

theorem named_iff {j : Fin 32} : st.named name j ↔ ∃ e, st j = some e ∧ e.name = some name := by
  unfold Store.named
  cases st j with
  | none => simp
  | some e => simp

variable {e : Entry}

/-- **What a changed slot shows.**  The slot was free, or had the same name. -/
theorem contents_put (hold : ∀ e', st i = some e' → e'.name = e.name) (n : Text) :
    contents files (st.put i e) n =
      if e.name = some n ∧ ∀ j < i, st.named n j = false then some (e.data.getD [])
      else contents files st n := by
  have hself : (st.put i e) i = some e := update_self ..
  have hrest : ∀ j, j ≠ i → (st.put i e) j = st j := fun j hj => update_of_ne hj _ _
  have hnamed : ∀ j, j ≠ i → (st.put i e).named n j = st.named n j := fun j hj => by
    rw [Store.named, hrest j hj, Store.named]
  have hnew : (st.put i e).named n i ↔ e.name = some n := by
    rw [Store.named, hself]
    simp
  by_cases hshow : e.name = some n ∧ ∀ j < i, st.named n j = false
  · have hat : (st.put i e).entryOf n = some i := by
      refine firstIdx_eq_some.mpr ⟨hnew.mpr hshow.1, fun j hj => ?_⟩
      rw [hnamed j hj.ne]
      exact hshow.2 j hj
    rw [if_pos hshow, contents, hat]
    simp only [Store.bytesAt, hself, Option.bind_some]
  · rw [if_neg hshow]
    -- the search ends at another slot, or finds none
    cases hat : st.entryOf n with
    | some k =>
      obtain ⟨hk, hfirst⟩ := firstIdx_eq_some.mp hat
      have hki : k ≠ i := by
        rintro rfl
        obtain ⟨e', he', hn⟩ := named_iff.mp hk
        exact hshow ⟨(hold e' he').symm.trans hn, hfirst⟩
      have hat' : (st.put i e).entryOf n = some k := by
        refine firstIdx_eq_some.mpr ⟨(hnamed k hki).trans hk, fun j hj => ?_⟩
        by_cases hji : j = i
        · subst hji
          by_contra hno
          have hen := hnew.mp (by simpa using hno)
          exact hshow ⟨hen, fun j' hj' => hfirst j' (hj'.trans hj)⟩
        · exact (hnamed j hji).trans (hfirst j hj)
      rw [contents, hat', contents, hat]
      simp only [Store.bytesAt, hrest k hki]
    | none =>
      have hno := firstIdx_eq_none.mp hat
      have hat' : (st.put i e).entryOf n = none := by
        refine firstIdx_eq_none.mpr fun j => ?_
        by_cases hji : j = i
        · subst hji
          by_contra hno'
          exact hshow ⟨hnew.mp (by simpa using hno'), fun j' _ => hno j'⟩
        · exact (hnamed j hji).trans (hno j)
      rw [contents, hat', contents, hat]

variable {d : List UInt8}

/-- A change of a slot changes no file exactly if it does not show. -/
theorem put_same_iff (hold : ∀ e', st i = some e' → e'.name = e.name)
    (hname : e.name = some name) (hd : e.data.getD [] = d) :
    (∀ n, contents files (st.put i e) n = contents files st n) ↔ Shown files st i name d := by
  constructor
  · intro h
    by_cases hfirst : ∀ j < i, st.named name j = false
    · have hn := h name
      rw [contents_put hold, if_pos ⟨hname, hfirst⟩, hd] at hn
      exact .inr hn.symm
    · simp only [not_forall, Bool.not_eq_false] at hfirst
      obtain ⟨j, hj, hnamed⟩ := hfirst
      exact .inl ⟨j, hj, hnamed⟩
  · intro h n
    rw [contents_put hold]
    split
    · rename_i hshow
      have hn : n = name := Option.some.inj (hshow.1.symm.trans hname)
      subst hn
      rcases h with ⟨j, hj, hnamed⟩ | hsame
      · rw [hshow.2 j hj] at hnamed
        cases hnamed
      · rw [hd, hsame]
    · rfl

theorem named_put (h : Named st) (he : e.name.isSome) : Named (st.put i e) := by
  intro j e' hj
  by_cases hji : j = i
  · subst hji
    rw [Store.put, update_self] at hj
    rwa [← Option.some.inj hj]
  · rw [Store.put, update_of_ne hji] at hj
    exact h j e' hj

/-- With names in all slots, the enumeration meets every file. -/
theorem Named.enumerated (h : Named st) : Enumerated files st := by
  intro name hsome
  have htable : ∀ j < files.length, (fsNameAt files st j).isSome := by
    intro j hj
    rw [fsNameAt, if_pos hj, List.getElem?_eq_getElem hj]
    rfl
  have hslots : ∀ (j : Nat) (e : Entry), ((List.finRange 32).filterMap st)[j]? = some e → e.name.isSome := by
    intro j e hj
    obtain ⟨i, -, hi⟩ := List.mem_filterMap.mp (List.mem_of_getElem? hj)
    exact h i e hi
  unfold contents at hsome
  cases hat : st.entryOf name with
  | some i =>
    obtain ⟨e, he, hn⟩ := named_iff.mp (firstIdx_some hat)
    have hmem : e ∈ (List.finRange 32).filterMap st := List.mem_filterMap.mpr ⟨i, List.mem_finRange i, he⟩
    obtain ⟨k, hk, hget⟩ := List.getElem_of_mem hmem
    have hget' : ((List.finRange 32).filterMap st)[k]? = some e := by
      rw [List.getElem?_eq_getElem hk, hget]
    refine ⟨files.length + k, ?_, fun j hj => ?_⟩
    · rwa [fsNameAt, if_neg (by omega), Nat.add_sub_cancel_left, hget']
    · by_cases hlt : j < files.length
      · exact htable j hlt
      · have hj' : j - files.length < ((List.finRange 32).filterMap st).length := by omega
        rw [fsNameAt, if_neg hlt, List.getElem?_eq_getElem hj']
        exact hslots _ _ (List.getElem?_eq_getElem hj')
  | none =>
    rw [hat] at hsome
    obtain ⟨d, hd⟩ := Option.isSome_iff_exists.mp hsome
    have hmem : (name, d) ∈ files := by
      obtain ⟨l₁, l₂, heq, -⟩ := List.lookup_eq_some_iff.mp hd
      rw [heq]
      simp
    obtain ⟨k, hk, hget⟩ := List.getElem_of_mem hmem
    refine ⟨k, ?_, fun j hj => htable j (by omega)⟩
    rw [fsNameAt, if_pos hk, List.getElem?_eq_getElem hk, hget]
    rfl

theorem int32_neg_iff {n : Nat} (h : n < 2 ^ 32) : int32 n < 0 ↔ 2 ^ 31 ≤ n := by
  unfold int32 Int.bmod
  dsimp only
  omega

theorem given_length (src : Option (Nat → UInt8)) (size : UInt32) : (given src size).length = size.toNat := by
  rw [given, List.length_map, List.length_range]

/-- The slot that is taken was free, or has the name. -/
theorem writeSlot_old {append : Bool} {old : Option (List UInt8)}
    (h : writeSlot st name append = some (i, old)) (e' : Entry) (he' : st i = some e') :
    e'.name = slotName a st name := by
  unfold writeSlot at h
  unfold slotName
  cases hat : st.entryOf name with
  | some k =>
    simp only [hat] at h
    obtain ⟨rfl, -⟩ := h
    obtain ⟨e, he, hn⟩ := named_iff.mp (firstIdx_some hat)
    rw [he] at he'
    rw [← Option.some.inj he', hn]
    rfl
  | none =>
    rw [hat] at h
    dsimp only at h
    split at h
    · cases h
    · obtain ⟨k, hk, hki⟩ := Option.map_eq_some_iff.mp h
      have hfree := firstIdx_some hk
      rw [(Prod.mk.inj hki).1, he'] at hfree
      cases hfree

/-- A granted slot has a name. -/
theorem slotName_granted (h : (st.entryOf name).isSome ∨ a.name) :
    slotName a st name = some (storedName st name) := by
  unfold slotName storedName
  split
  · rfl
  · rename_i hno
    rw [if_pos (h.resolve_left hno)]

/-- A call that leaves the bytes `d` in a granted slot, and answers `r`. -/
theorem kept_put_iff {r : Int} (hst : Named st)
    (hold : ∀ e', st i = some e' → e'.name = e.name) (hname : e.name = some name)
    (hd : e.data.getD [] = d) : Kept files st (r, st.put i e) ↔ (r < 0 → Shown files st i name d) := by
  have hnamed : Named (st.put i e) := named_put hst (by rw [hname]; rfl)
  rw [← put_same_iff hold hname hd]
  exact ⟨fun h => h.1, fun h => ⟨h, hnamed, hnamed.enumerated⟩⟩

theorem kept_same (hst : Named st) (r : Int) : Kept files st (r, st) :=
  ⟨fun _ _ => rfl, hst, hst.enumerated⟩

theorem fits_iff (hd : d.length < 2 ^ 32) :
    (int32 d.length < 0 → Shown files st i name d) ↔ Fits files st i name d := by
  rw [int32_neg_iff hd]
  constructor
  · intro h
    by_cases hlt : d.length < 2 ^ 31
    · exact .inl hlt
    · exact .inr (h (by omega))
  · rintro (hlt | hshown) hge
    · omega
    · exact hshown

end

/-- What the call does to the slot that it takes. -/
theorem kept_slot_iff {st : Store} (hst : Named st) {name : Text} {src : Option (Nat → UInt8)}
    {size : UInt32} {append : Bool} {i : Fin 32} {old : Option (List UInt8)} (hname : name ≠ [])
    (hsrc : ¬(src = none ∧ 0 < size)) (hslot : writeSlot st name append = some (i, old)) :
    Kept files st (fsWrite a st name src size append) ↔
      HarmlessAt files a st name src size append i old := by
  have hold := fun e' => writeSlot_old (a := a) hslot e'
  have hgiven : (given src size).length < 2 ^ 32 := by
    rw [given_length]
    exact size.toNat_lt
  have hjoined : ∀ d, (joined d (given src size)).length < 2 ^ 32 := fun d => by
    rw [joined, List.length_map, List.length_range]
    exact u32_lt _
  unfold fsWrite HarmlessAt
  rw [if_neg hname, if_neg hsrc, hslot]
  by_cases hgrant : (st.entryOf name).isSome ∨ a.name
  · have hput : ∀ r (data : Option (List UInt8)),
        Kept files st (r, st.put i ⟨slotName a st name, data⟩) ↔
          (r < 0 → Shown files st i (storedName st name) (data.getD [])) :=
      fun r data => kept_put_iff hst hold (slotName_granted hgrant) rfl
    have hplain : Kept files st (if size = 0 then (0, st.put i ⟨slotName a st name, none⟩)
          else if a.data then (int32 size.toNat, st.put i ⟨slotName a st name, some (given src size)⟩)
          else (-1, st.put i ⟨slotName a st name, none⟩)) ↔
        (size ≠ 0 → if a.data then Fits files st i (storedName st name) (given src size)
          else Shown files st i (storedName st name) []) := by
      by_cases hzero : size = 0
      · rw [if_pos hzero, hput]
        exact iff_of_true (fun h => absurd h (by decide)) fun h => absurd hzero h
      rw [if_neg hzero]
      by_cases hdata : a.data
      · rw [if_pos hdata, if_pos hdata, hput, ← fits_iff hgiven, given_length]
        exact ⟨fun h _ => h, fun h => h hzero⟩
      · rw [if_neg hdata, if_neg hdata, hput]
        exact ⟨fun h _ => h (by decide), fun h _ => h hzero⟩
    simp only [hgrant, true_and]
    match append, old with
    | true, some d =>
      by_cases hdata : a.data
      · simp only [hdata, if_true, hput, Option.getD_some, fits_iff (hjoined d), forall_const]
      · simp only [hdata, Bool.false_eq_true, false_imp_iff, iff_true]
        exact kept_same hst _
    | true, none => exact hplain
    | false, _ => exact hplain
  · -- the slot has no name, whatever the answer
    refine iff_of_false (fun h => ?_) fun h => hgrant h.1
    have hnull : slotName a st name = none := by
      unfold slotName
      rw [if_neg fun h => hgrant (.inl h), if_neg fun h => hgrant (.inr h)]
    have hno : ∀ data, ¬Named (st.put i ⟨slotName a st name, data⟩) := fun data hn => by
      have := hn i _ (update_self ..)
      rw [hnull] at this
      cases this
    -- a new slot has no data, and is not appended to
    have hnew : append = false ∧ old = none := by
      have hat : st.entryOf name = none := by simpa using fun h => hgrant (.inl h)
      rw [writeSlot, hat] at hslot
      dsimp only at hslot
      split at hslot
      · cases hslot
      · obtain ⟨k, -, hk⟩ := Option.map_eq_some_iff.mp hslot
        exact ⟨Bool.eq_false_iff.mpr ‹_›, (Prod.mk.inj hk).2.symm⟩
    obtain ⟨rfl, rfl⟩ := hnew
    have hnamed := h.2.1
    dsimp only at hnamed
    split at hnamed
    · exact hno _ hnamed
    · split at hnamed
      · exact hno _ hnamed
      · exact hno _ hnamed

/-- **Failed writes have no effect exactly when** the call does no harm. -/
theorem fs_write_kept_iff {st : Store} (hst : Named st) (a : Alloc) (name : Text)
    (src : Option (Nat → UInt8)) (size : UInt32) (append : Bool) :
    Kept files st (fsWrite a st name src size append) ↔ Harmless files a st name src size append := by
  by_cases hname : name = []
  · refine iff_of_true ?_ fun h => absurd hname h
    rw [fsWrite, if_pos hname]
    exact kept_same hst _
  by_cases hsrc : src = none ∧ 0 < size
  · refine iff_of_true ?_ fun _ h => ?_
    · rw [fsWrite, if_neg hname, if_pos hsrc]
      exact kept_same hst _
    · rw [h hsrc.1] at hsrc
      exact absurd hsrc.2 (by decide)
  have hsize : src = none → size = 0 := fun h => by
    by_contra hne
    exact hsrc ⟨h, UInt32.pos_iff_ne_zero.mpr hne⟩
  cases hslot : writeSlot st name append with
  | none =>
    refine iff_of_true ?_ fun _ _ i old h => ?_
    · rw [fsWrite, if_neg hname, if_neg hsrc, hslot]
      exact kept_same hst _
    · rw [hslot] at h
      cases h
  | some taken =>
    obtain ⟨i, old⟩ := taken
    rw [kept_slot_iff files hst hname hsrc hslot]
    refine ⟨fun h _ _ i' old' hslot' => ?_, fun h => h hname hsize i old hslot⟩
    cases hslot.symm.trans hslot'
    exact h

/-- One file, `a`. -/
def oneFile : Store := Store.put (fun _ => none) 0 ⟨some [97], some [1, 2, 3]⟩

theorem oneFile_named : Named oneFile := named_put (fun _ _ h => nomatch h) rfl

/-- A refused append leaves the file alone. -/
theorem fs_write_kept_append : Kept [] oneFile
    (fsWrite ⟨true, false⟩ oneFile [97] (some fun _ => 9) 1 true) := by
  refine (fs_write_kept_iff [] oneFile_named _ _ _ _ _).mpr fun _ _ i old hslot => ?_
  have hat : writeSlot oneFile [97] true = some (0, some [1, 2, 3]) := by decide
  cases hat.symm.trans hslot
  exact ⟨.inl (by decide), fun h => nomatch h⟩

/-- Overwriting `a` without a block for the new data empties it and answers `-1`; a new file without a
    block for its name is a slot that ends the enumeration, and the answer is the size. -/
theorem refused_blocks_do_harm : ((fsWrite ⟨true, false⟩ oneFile [97] (some fun _ => 9) 1 false).1 = -1 ∧
      contents [] oneFile [97] = some [1, 2, 3] ∧
      contents [] (fsWrite ⟨true, false⟩ oneFile [97] (some fun _ => 9) 1 false).2 [97] = some []) ∧
    (fsWrite ⟨false, true⟩ oneFile [98] (some fun _ => 9) 1 false).1 = 1 ∧
      fsNameAt [] (fsWrite ⟨false, true⟩ oneFile [98] (some fun _ => 9) 1 false).2 1 = none ∧
      ¬Named (fsWrite ⟨false, true⟩ oneFile [98] (some fun _ => 9) 1 false).2 := by
  refine ⟨by decide, by decide, by decide, fun h => ?_⟩
  have hnull := h 1 ⟨none, some [9]⟩ (by decide)
  cases hnull

end Lyth.FlatStore
