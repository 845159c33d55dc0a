/-
  JSON values, with objects as sorted maps.

  An object is the list of its entries. `find` takes the first entry of a key, and `insert`
  keeps the list sorted by key and replaces an entry that is there, so a list built with
  `insert` has one entry for each key (`Sorted.insert`). `find_insert` needs neither fact. What
  is sorted is determined by what is found in it (`Sorted.ext`).
-/
import Mathlib.Data.List.Basic
import Mathlib.Data.String.Basic

namespace FlyVault.Lib

/-- A number is unsigned, negative or a float, the float given by its bits. -/
inductive Number
  | posInt (n : UInt64)
  | negInt (n : Int64)
  | float (bits : UInt64)
  deriving DecidableEq, Repr

inductive Json
  | null
  | bool (b : Bool)
  | number (n : Number)
  | string (s : String)
  | array (items : List Json)
  | object (fields : List (String × Json))

namespace Json

abbrev Fields := List (String × Json)

def find : Fields → String → Option Json
  | [], _ => none
  | (key, value) :: rest, k => if key = k then some value else find rest k

def insert : Fields → String → Json → Fields
  | [], k, v => [(k, v)]
  | (key, value) :: rest, k, v =>
      if key = k then (k, v) :: rest
      else if k < key then (k, v) :: (key, value) :: rest
      else (key, value) :: insert rest k v

theorem find_insert (fields : Fields) (k j : String) (v : Json) :
    find (insert fields k v) j = if k = j then some v else find fields j := by
  induction fields with
  | nil => rfl
  | cons entry rest ih =>
      obtain ⟨key, value⟩ := entry
      unfold insert
      split
      · next heq =>
          subst heq
          unfold find
          split
          · rfl
          · rfl
      · next hne =>
          split
          · rfl
          · rw [find, find, ih]
            by_cases hj : k = j
            · rw [if_pos hj, if_neg (fun h => hne (h.trans hj.symm)), if_pos hj]
            · rw [if_neg hj, if_neg hj]

/-- One entry for each key, in the order of the keys. -/
def Sorted (fields : Fields) : Prop := (fields.map Prod.fst).Pairwise (· < ·)

instance (fields : Fields) : Decidable (Sorted fields) :=
  inferInstanceAs (Decidable ((fields.map Prod.fst).Pairwise (· < ·)))

theorem sorted_cons {key : String} {value : Json} {rest : Fields} :
    Sorted ((key, value) :: rest) ↔ (∀ entry ∈ rest, key < entry.1) ∧ Sorted rest := by
  rw [Sorted, List.map_cons, List.pairwise_cons, List.forall_mem_map]
  rfl

theorem find_of_lt {fields : Fields} {k : String} (h : ∀ entry ∈ fields, k < entry.1) :
    find fields k = none := by
  induction fields with
  | nil => rfl
  | cons entry rest ih =>
      obtain ⟨hhead, hrest⟩ := List.forall_mem_cons.mp h
      rw [find, if_neg hhead.ne', ih hrest]

theorem mem_insert {fields : Fields} {k : String} {v : Json} {entry : String × Json}
    (h : entry ∈ insert fields k v) : entry = (k, v) ∨ entry ∈ fields := by
  fun_induction insert with
  | case1 k v => exact .inl (List.mem_singleton.mp h)
  | case2 value rest k v => exact (List.mem_cons.mp h).imp id (.tail _)
  | case3 key value rest k v hne hlt => exact List.mem_cons.mp h
  | case4 key value rest k v hne hlt ih =>
      obtain h | h := List.mem_cons.mp h
      · exact .inr (h ▸ List.mem_cons_self)
      · exact (ih h).imp id (.tail _)

theorem Sorted.insert {fields : Fields} (h : Sorted fields) (k : String) (v : Json) :
    Sorted (insert fields k v) := by
  fun_induction Json.insert with
  | case1 k v => exact sorted_cons.mpr ⟨List.forall_mem_nil _, h⟩
  | case2 value rest k v => exact sorted_cons.mpr (sorted_cons.mp h)
  | case3 key value rest k v hne hlt =>
      refine sorted_cons.mpr ⟨List.forall_mem_cons.mpr ⟨hlt, fun entry hentry => ?_⟩, h⟩
      exact hlt.trans ((sorted_cons.mp h).1 entry hentry)
  | case4 key value rest k v hne hlt ih =>
      obtain ⟨hless, hrest⟩ := sorted_cons.mp h
      refine sorted_cons.mpr ⟨fun entry hentry => ?_, ih hrest⟩
      obtain rfl | hentry := mem_insert hentry
      · exact lt_of_le_of_ne (not_lt.mp hlt) hne
      · exact hless entry hentry

/-- Sorted maps in which the same is found are equal. -/
theorem Sorted.ext {fields others : Fields} (h : Sorted fields) (h' : Sorted others)
    (hsame : ∀ k, find fields k = find others k) : fields = others := by
  induction fields generalizing others with
  | nil =>
      cases others with
      | nil => rfl
      | cons other others =>
          have hfind := hsame other.1
          rw [find, find, if_pos rfl] at hfind
          cases hfind
  | cons entry rest ih =>
      obtain ⟨key, value⟩ := entry
      obtain ⟨hless, hrest⟩ := sorted_cons.mp h
      cases others with
      | nil =>
          have hfind : (if key = key then some value else find rest key) = none := hsame key
          rw [if_pos rfl] at hfind
          cases hfind
      | cons other others =>
          obtain ⟨key', value'⟩ := other
          obtain ⟨hless', hrest'⟩ := sorted_cons.mp h'
          -- the smaller of the two first keys would be missing on the other side
          have hkey : key = key' := by
            rcases lt_trichotomy key key' with hlt | heq | hlt
            · have hfind := hsame key
              have hnone : find ((key', value') :: others) key = none :=
                find_of_lt (List.forall_mem_cons.mpr
                  ⟨hlt, fun entry hentry => hlt.trans (hless' entry hentry)⟩)
              rw [hnone, find, if_pos rfl] at hfind
              cases hfind
            · exact heq
            · have hfind := hsame key'
              have hnone : find ((key, value) :: rest) key' = none :=
                find_of_lt (List.forall_mem_cons.mpr
                  ⟨hlt, fun entry hentry => hlt.trans (hless entry hentry)⟩)
              rw [hnone, find, if_pos rfl] at hfind
              cases hfind
          subst hkey
          have hvalue : value = value' := by
            have hfind := hsame key
            rw [find, find, if_pos rfl, if_pos rfl] at hfind
            exact Option.some.inj hfind
          have htail : rest = others := by
            refine ih hrest hrest' fun k => ?_
            by_cases hk : key = k
            · rw [← hk, find_of_lt hless, find_of_lt hless']
            · have hfind := hsame k
              rwa [find, find, if_neg hk, if_neg hk] at hfind
          rw [hvalue, htail]

def asObject : Json → Option Fields
  | object fields => some fields
  | _ => none

def asArray : Json → Option (List Json)
  | array items => some items
  | _ => none

def asU64 : Json → Option UInt64
  | number (.posInt n) => some n
  | _ => none

def asStr : Json → Option String
  | string s => some s
  | _ => none

end Json

end FlyVault.Lib
