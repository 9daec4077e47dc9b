import ZyncBase.Sdk.Path

/-! The users and the shared record of a presence namespace as the client keeps them. -/
namespace ZyncBase.Sdk

open AssocMap List

def spread (record patch : Entries) : Entries := patch.foldl (fun r e => put eqKey e.1 e.2 r) record

structure PresenceEntry where
  userId : String
  data : Entries
  joinedAt : ℕ

inductive BroadcastEvent where
  | join
  | update
  | leave
  deriving DecidableEq

/-- The user id is decoded. A join has both of the optional properties, an update has the data. -/
structure PresenceBroadcastEntry where
  userId : String
  event : BroadcastEvent
  data : Option Entries := none
  joinedAt : Option ℕ := none

structure PresenceUserSnapshot where
  userId : String
  data : Entries
  joinedAt : Option ℕ := none

/-- The users are in an array, and a map has the position of each of them. -/
structure UserCache where
  userEntries : List PresenceEntry
  userIndexes : List (String × ℕ)
  indexed : ∀ userId i, find eqKey userId userIndexes = some i ↔
    (userEntries[i]?).map PresenceEntry.userId = some userId

variable {c : UserCache} {userId : String} {e : PresenceEntry}

namespace UserCache

def get (c : UserCache) (userId : String) : Option PresenceEntry :=
  (find eqKey userId c.userIndexes).bind fun i => c.userEntries[i]?

def clearUserCache : UserCache := ⟨[], [], fun userId i => by simp⟩

lemma find_eq_some {i : ℕ} (h : find eqKey userId c.userIndexes = some i) :
    ∃ e, c.userEntries[i]? = some e ∧ e.userId = userId :=
  Option.map_eq_some_iff.mp ((c.indexed userId i).mp h)

lemma find_of_getElem? {i : ℕ}
    (h : c.userEntries[i]? = some e) : find eqKey e.userId c.userIndexes = some i := by
  rw [c.indexed, h]
  rfl

lemma get_eq_some_iff : c.get userId = some e ↔ e ∈ c.userEntries ∧ e.userId = userId := by
  rw [get, Option.bind_eq_some_iff]
  constructor
  · rintro ⟨i, hi, he⟩
    obtain ⟨e', he', hid⟩ := find_eq_some hi
    rw [he] at he'
    cases he'
    exact ⟨mem_of_getElem? he, hid⟩
  · rintro ⟨hmem, rfl⟩
    obtain ⟨i, hi⟩ := mem_iff_getElem?.mp hmem
    exact ⟨i, find_of_getElem? hi, hi⟩

lemma index_unique {e' : PresenceEntry} {i j : ℕ}
    (hi : c.userEntries[i]? = some e) (hj : c.userEntries[j]? = some e')
    (hid : e.userId = e'.userId) : i = j := by
  have hfind := find_of_getElem? hi
  rw [hid, find_of_getElem? hj] at hfind
  exact (Option.some_inj.mp hfind).symm

lemma find_put_string (userId userId' : String) (i : ℕ) (m : List (String × ℕ)) :
    find eqKey userId' (put eqKey userId i m) =
      if userId = userId' then some i else find eqKey userId' m := by
  simp only [find_put, eqKey_iff]

lemma indexed_push {entry : PresenceEntry}
    (h : find eqKey entry.userId c.userIndexes = none) (userId : String) (i : ℕ) :
    find eqKey userId (put eqKey entry.userId c.userEntries.length c.userIndexes) = some i ↔
      ((c.userEntries ++ [entry])[i]?).map PresenceEntry.userId = some userId := by
  rw [find_put_string]
  have hbound : ∀ e, c.userEntries[i]? = some e → i < c.userEntries.length :=
    fun e he => (List.getElem?_eq_some_iff.mp he).1
  by_cases hid : entry.userId = userId
  · subst hid
    rw [if_pos rfl, Option.map_eq_some_iff, Option.some_inj]
    constructor
    · rintro rfl
      exact ⟨entry, by simp, rfl⟩
    · rintro ⟨e, he, hid⟩
      rw [List.getElem?_append] at he
      split_ifs at he with hlt
      · rw [← hid, find_of_getElem? he] at h
        cases h
      · have := (List.getElem?_eq_some_iff.mp he).1
        rw [length_singleton] at this
        omega
  · rw [if_neg hid, c.indexed, Option.map_eq_some_iff, Option.map_eq_some_iff]
    refine exists_congr fun e => and_congr_left fun heid => ?_
    rw [List.getElem?_append]
    split_ifs with hlt
    · exact Iff.rfl
    · refine iff_of_false (fun he => hlt (hbound e he)) fun he => ?_
      rw [getElem?_singleton] at he
      split_ifs at he with hzero
      cases he
      exact hid heid

lemma map_userId_set {entries : List PresenceEntry} {entry old : PresenceEntry} {i : ℕ}
    (hi : entries[i]? = some old) (hid : old.userId = entry.userId) (j : ℕ) :
    ((entries.set i entry)[j]?).map PresenceEntry.userId = (entries[j]?).map PresenceEntry.userId := by
  rw [getElem?_set]
  by_cases hj : i = j
  · subst hj
    have hlt : i < entries.length := (List.getElem?_eq_some_iff.mp hi).1
    rw [if_pos rfl, if_pos hlt, hi]
    exact congrArg some hid.symm
  · rw [if_neg hj]

/-- An entry of a user that is known takes the place of the old one. -/
def setUserEntry (entry : PresenceEntry) (c : UserCache) : UserCache :=
  match h : find eqKey entry.userId c.userIndexes with
  | none =>
    ⟨c.userEntries ++ [entry], put eqKey entry.userId c.userEntries.length c.userIndexes, indexed_push h⟩
  | some index =>
    ⟨c.userEntries.set index entry, c.userIndexes, fun userId i => by
      obtain ⟨old, hold, hid⟩ := find_eq_some h
      rw [map_userId_set hold hid, c.indexed]⟩

lemma mem_setUserEntry {entry : PresenceEntry} :
    e ∈ (setUserEntry entry c).userEntries ↔ e = entry ∨ e ∈ c.userEntries ∧ e.userId ≠ entry.userId := by
  rw [setUserEntry]
  split
  · next h =>
    have hne : ∀ e ∈ c.userEntries, e.userId ≠ entry.userId := by
      intro e he hid
      obtain ⟨i, hi⟩ := mem_iff_getElem?.mp he
      rw [← hid, find_of_getElem? hi] at h
      cases h
    rw [mem_append, mem_singleton, or_comm]
    exact or_congr_right ⟨fun he => ⟨he, hne e he⟩, And.left⟩
  · next index h =>
    obtain ⟨old, hold, hid⟩ := find_eq_some h
    have hlt := (List.getElem?_eq_some_iff.mp hold).1
    rw [mem_iff_getElem?]
    constructor
    · rintro ⟨i, hi⟩
      rw [getElem?_set] at hi
      split_ifs at hi with heq
      · exact .inl (Option.some_inj.mp hi).symm
      · exact .inr ⟨mem_of_getElem? hi, fun he => heq (index_unique hold hi (hid.trans he.symm))⟩
    · rintro (rfl | ⟨he, hne⟩)
      · exact ⟨index, by rw [getElem?_set_self hlt]⟩
      · obtain ⟨i, hi⟩ := mem_iff_getElem?.mp he
        refine ⟨i, ?_⟩
        rw [getElem?_set_ne, hi]
        rintro rfl
        rw [hold] at hi
        cases hi
        exact hne hid

lemma get_setUserEntry (entry : PresenceEntry) (c : UserCache) :
    (setUserEntry entry c).get = Function.update c.get entry.userId (some entry) := by
  funext userId
  refine Option.ext fun e => ?_
  rw [get_eq_some_iff, mem_setUserEntry]
  by_cases hid : userId = entry.userId
  · subst hid
    rw [Function.update_self, Option.some_inj]
    constructor
    · rintro ⟨rfl | ⟨-, hne⟩, heq⟩
      · rfl
      · exact absurd heq hne
    · rintro rfl
      exact ⟨.inl rfl, rfl⟩
  · rw [Function.update_of_ne hid, get_eq_some_iff]
    refine and_congr_left fun heq => ?_
    subst heq
    exact ⟨fun h => h.elim (fun he => absurd (congrArg _ he) hid) And.left, fun h => .inr ⟨h, hid⟩⟩

lemma find_remove_string (userId userId' : String) (m : List (String × ℕ)) :
    find eqKey userId' (remove eqKey userId m) =
      if userId = userId' then none else find eqKey userId' m := by
  simp only [find_remove, eqKey_iff]

lemma indexed_pop {index : ℕ}
    (h : find eqKey userId c.userIndexes = some index) (hlast : index = c.userEntries.length - 1)
    (userId' : String) (i : ℕ) :
    find eqKey userId' (remove eqKey userId c.userIndexes) = some i ↔
      (c.userEntries.dropLast[i]?).map PresenceEntry.userId = some userId' := by
  obtain ⟨e, he, rfl⟩ := find_eq_some h
  rw [find_remove_string, getElem?_dropLast, Option.map_eq_some_iff]
  by_cases hid : e.userId = userId'
  · subst hid
    rw [if_pos rfl]
    refine iff_of_false (fun hnone => Option.some_ne_none _ hnone.symm) ?_
    rintro ⟨e', he', hid'⟩
    split_ifs at he' with hlt
    have := index_unique he he' hid'.symm
    omega
  · rw [if_neg hid, c.indexed, Option.map_eq_some_iff]
    refine exists_congr fun e' => and_congr_left fun hid' => ?_
    split_ifs with hlt
    · exact Iff.rfl
    · refine iff_of_false (fun he' => hid ?_) id
      have hbound := (List.getElem?_eq_some_iff.mp he').1
      have heq : i = index := by omega
      subst heq
      rw [he] at he'
      cases he'
      exact hid'

lemma indexed_swap {index : ℕ} {lastEntry : PresenceEntry}
    (h : find eqKey userId c.userIndexes = some index) (hlast : index ≠ c.userEntries.length - 1)
    (hentry : c.userEntries[c.userEntries.length - 1]? = some lastEntry)
    (userId' : String) (i : ℕ) :
    find eqKey userId' (remove eqKey userId (put eqKey lastEntry.userId index c.userIndexes)) = some i ↔
      ((c.userEntries.set index lastEntry).dropLast[i]?).map PresenceEntry.userId = some userId' := by
  obtain ⟨e, he, rfl⟩ := find_eq_some h
  have hindex := (List.getElem?_eq_some_iff.mp he).1
  have hne : e.userId ≠ lastEntry.userId := fun hid => hlast (index_unique he hentry hid)
  rw [find_remove_string, find_put_string, getElem?_dropLast, length_set,
    getElem?_set, Option.map_eq_some_iff]
  by_cases hid : e.userId = userId'
  · subst hid
    rw [if_pos rfl]
    refine iff_of_false (fun hnone => Option.some_ne_none _ hnone.symm) ?_
    rintro ⟨e', he', hid'⟩
    split_ifs at he' with hlt heq
    · cases he'
      exact hne hid'.symm
    · exact heq (index_unique he he' hid'.symm)
  · rw [if_neg hid]
    by_cases hid' : lastEntry.userId = userId'
    · subst hid'
      rw [if_pos rfl, Option.some_inj]
      constructor
      · rintro rfl
        exact ⟨lastEntry, by rw [if_pos (by omega), if_pos rfl, if_pos hindex], rfl⟩
      · rintro ⟨e', he', hid'⟩
        split_ifs at he' with hlt heq
        · exact heq
        · have := index_unique hentry he' hid'.symm
          omega
    · rw [if_neg hid', c.indexed, Option.map_eq_some_iff]
      refine exists_congr fun e' => and_congr_left fun heid => ?_
      have hi : c.userEntries[i]? = some e' → i ≠ index ∧ i < c.userEntries.length - 1 := by
        intro he'
        have hbound := (List.getElem?_eq_some_iff.mp he').1
        refine ⟨fun heq => hid ?_, ?_⟩
        · subst heq
          rw [he] at he'
          cases he'
          exact heid
        · by_contra hge
          have heq : i = c.userEntries.length - 1 := by omega
          subst heq
          rw [hentry] at he'
          cases he'
          exact hid' heid
      split_ifs with hlt heq
      · refine iff_of_false (fun he' => (hi he').1 heq.symm) ?_
        rintro ⟨⟩
        exact hid' heid
      · exact Iff.rfl
      · exact iff_of_false (fun he' => hlt (hi he').2) id

lemma getElem?_last {index : ℕ} (h : find eqKey userId c.userIndexes = some index) :
    ∃ e, c.userEntries[c.userEntries.length - 1]? = some e := by
  obtain ⟨e, he, -⟩ := find_eq_some h
  have hlt := (List.getElem?_eq_some_iff.mp he).1
  exact ⟨_, getElem?_eq_getElem (by omega)⟩

def removeUserEntry (userId : String) (c : UserCache) : UserCache :=
  match h : find eqKey userId c.userIndexes with
  | none => c
  | some index =>
    if hlast : index = c.userEntries.length - 1 then
      ⟨c.userEntries.dropLast, remove eqKey userId c.userIndexes, indexed_pop h hlast⟩
    else
      match hentry : c.userEntries[c.userEntries.length - 1]? with
      | none => c
      | some lastEntry =>
        ⟨(c.userEntries.set index lastEntry).dropLast,
          remove eqKey userId (put eqKey lastEntry.userId index c.userIndexes),
          indexed_swap h hlast hentry⟩

lemma find_removeUserEntry (userId : String) (c : UserCache) :
    find eqKey userId (removeUserEntry userId c).userIndexes = none := by
  rw [removeUserEntry]
  split
  · assumption
  · next index h =>
    split_ifs
    · rw [find_remove_string, if_pos rfl]
    · split
      · next hnone =>
        obtain ⟨e, he⟩ := getElem?_last h
        rw [hnone] at he
        cases he
      · rw [find_remove_string, if_pos rfl]

lemma mem_removeUserEntry
    (hne : e.userId ≠ userId) : e ∈ (removeUserEntry userId c).userEntries ↔ e ∈ c.userEntries := by
  rw [removeUserEntry]
  split
  · exact Iff.rfl
  · next index h =>
    obtain ⟨old, hold, hid⟩ := find_eq_some h
    have hbound := (List.getElem?_eq_some_iff.mp hold).1
    have hindex : c.userEntries[index]? ≠ some e := by
      intro he
      rw [hold] at he
      cases he
      exact hne hid
    split_ifs with hlast
    · rw [mem_iff_getElem?, mem_iff_getElem?]
      refine exists_congr fun i => ?_
      rw [getElem?_dropLast]
      split_ifs with hlt
      · exact Iff.rfl
      · refine iff_of_false id fun he => hindex ?_
        have := (List.getElem?_eq_some_iff.mp he).1
        have heq : i = index := by omega
        rw [← heq, he]
    · split
      · exact Iff.rfl
      · next lastEntry hentry =>
        rw [mem_iff_getElem?, mem_iff_getElem?]
        constructor
        · rintro ⟨i, hi⟩
          rw [getElem?_dropLast, getElem?_set] at hi
          split_ifs at hi
          · exact ⟨_, hentry.trans hi⟩
          · exact ⟨i, hi⟩
        · rintro ⟨i, hi⟩
          have hi' := (List.getElem?_eq_some_iff.mp hi).1
          by_cases heq : i = c.userEntries.length - 1
          · refine ⟨index, ?_⟩
            rw [getElem?_dropLast, length_set, if_pos (by omega),
              getElem?_set_self hbound, ← hentry, ← heq, hi]
          · refine ⟨i, ?_⟩
            rw [getElem?_dropLast, length_set, if_pos (by omega), getElem?_set_ne, hi]
            rintro rfl
            exact hindex hi

lemma get_removeUserEntry (userId : String) (c : UserCache) :
    (removeUserEntry userId c).get = Function.update c.get userId none := by
  funext userId'
  by_cases hid : userId' = userId
  · subst hid
    rw [Function.update_self, get, find_removeUserEntry]
    rfl
  · rw [Function.update_of_ne hid]
    refine Option.ext fun e => ?_
    rw [get_eq_some_iff, get_eq_some_iff]
    refine and_congr_left fun heq => mem_removeUserEntry ?_
    rw [heq]
    exact hid

def applyBroadcastJoin (entry : PresenceBroadcastEntry) (c : UserCache) : UserCache :=
  setUserEntry ⟨entry.userId, entry.data.getD [], entry.joinedAt.getD 0⟩ c

def applyBroadcastUpdate (entry : PresenceBroadcastEntry) (c : UserCache) : UserCache :=
  match c.get entry.userId with
  | some existing =>
    setUserEntry ⟨entry.userId, spread existing.data (entry.data.getD []), existing.joinedAt⟩ c
  | none => setUserEntry ⟨entry.userId, entry.data.getD [], entry.joinedAt.getD 0⟩ c

def applyBroadcastEntry (entry : PresenceBroadcastEntry) (c : UserCache) : UserCache :=
  match entry.event with
  | .leave => removeUserEntry entry.userId c
  | .join => applyBroadcastJoin entry c
  | .update => applyBroadcastUpdate entry c

def handlePresenceBroadcast (users : List PresenceBroadcastEntry) (c : UserCache) : UserCache :=
  users.foldl (fun c entry => applyBroadcastEntry entry c) c

/-- A response without a list of users leaves the cache empty. -/
def populateUserCacheFromSnapshot (users : Option (List PresenceUserSnapshot)) : UserCache :=
  (users.getD []).foldl
    (fun c user => setUserEntry ⟨user.userId, user.data, user.joinedAt.getD 0⟩ c) clearUserCache

end UserCache

/-- The users of a namespace, without the order in which the client keeps them. -/
abbrev UserMap := String → Option PresenceEntry

namespace UserMap

def change (entry : PresenceBroadcastEntry) (existing : Option PresenceEntry) : Option PresenceEntry :=
  match entry.event, existing with
  | .leave, _ => none
  | .update, some existing =>
    some ⟨entry.userId, spread existing.data (entry.data.getD []), existing.joinedAt⟩
  | _, _ => some ⟨entry.userId, entry.data.getD [], entry.joinedAt.getD 0⟩

def apply (users : UserMap) (entry : PresenceBroadcastEntry) : UserMap :=
  Function.update users entry.userId (change entry (users entry.userId))

def ofSnapshot (snapshot : List PresenceUserSnapshot) : UserMap :=
  snapshot.foldl
    (fun users user =>
      Function.update users user.userId (some ⟨user.userId, user.data, user.joinedAt.getD 0⟩))
    fun _ => none

end UserMap

namespace UserCache

lemma get_applyBroadcastEntry (entry : PresenceBroadcastEntry) (c : UserCache) :
    (applyBroadcastEntry entry c).get = UserMap.apply c.get entry := by
  cases h : entry.event with
  | leave =>
    simp only [applyBroadcastEntry, UserMap.apply, UserMap.change, h]
    exact get_removeUserEntry _ _
  | join =>
    simp only [applyBroadcastEntry, UserMap.apply, UserMap.change, h]
    exact get_setUserEntry _ _
  | update =>
    simp only [applyBroadcastEntry, UserMap.apply, UserMap.change, h, applyBroadcastUpdate]
    cases c.get entry.userId with
    | none => exact get_setUserEntry _ _
    | some existing => exact get_setUserEntry _ _

lemma get_handlePresenceBroadcast (users : List PresenceBroadcastEntry) (c : UserCache) :
    (handlePresenceBroadcast users c).get = users.foldl UserMap.apply c.get :=
  (foldl_hom get fun c entry => (get_applyBroadcastEntry entry c).symm).symm

lemma get_populateUserCacheFromSnapshot (users : Option (List PresenceUserSnapshot)) :
    (populateUserCacheFromSnapshot users).get = UserMap.ofSnapshot (users.getD []) :=
  (foldl_hom get fun c user =>
    (get_setUserEntry ⟨user.userId, user.data, user.joinedAt.getD 0⟩ c).symm).symm

end UserCache

end ZyncBase.Sdk
