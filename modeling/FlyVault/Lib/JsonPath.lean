/-
  The places in a JSON value.

  A path goes from a value to one of the values directly inside it, its children, and on from
  there. `children_induction` is induction over values by their children. A relation holds
  between two values at every path when it holds between the two themselves and, child by child,
  at every path of their children (`everywhere_iff`), and it is the one relation of that kind:
  `iff_everywhere`.
-/
import Mathlib.Data.List.Forall2
import FlyVault.Lib.Json

namespace FlyVault.Lib.Json

/-- The values directly inside a value. -/
def children : Json → List Json
  | array items => items
  | object fields => fields.map Prod.snd
  | _ => []

/-- The value at a path, whose steps are positions among the children. -/
def descend : List Nat → Json → Option Json
  | [], value => some value
  | i :: path, value => value.children[i]?.bind (descend path)

theorem children_induction {P : Json → Prop}
    (h : ∀ value, (∀ child ∈ value.children, P child) → P value) (value : Json) : P value := by
  refine @Json.rec P (fun items => ∀ item ∈ items, P item)
    (fun fields => ∀ entry ∈ fields, P entry.2) (fun entry => P entry.2)
    ?null ?bool ?number ?string ?array ?object ?nil ?cons ?nil' ?cons' ?entry value
  case null => exact h null (List.forall_mem_nil _)
  case bool => exact fun b => h (bool b) (List.forall_mem_nil _)
  case number => exact fun n => h (number n) (List.forall_mem_nil _)
  case string => exact fun s => h (string s) (List.forall_mem_nil _)
  case array => exact fun items hitems => h (array items) hitems
  case object => exact fun fields hfields => h (object fields) (List.forall_mem_map.mpr hfields)
  case nil => exact List.forall_mem_nil _
  case cons => exact fun _ _ hhead htail => List.forall_mem_cons.mpr ⟨hhead, htail⟩
  case nil' => exact List.forall_mem_nil _
  case cons' => exact fun _ _ hhead htail => List.forall_mem_cons.mpr ⟨hhead, htail⟩
  case entry => exact fun _ _ hvalue => hvalue

/-- What is somewhere in a child is somewhere in the value. -/
theorem descend_of_child {value child found : Json} (hchild : child ∈ value.children)
    {path : List Nat} (h : child.descend path = some found) :
    ∃ path', value.descend path' = some found := by
  obtain ⟨i, hi⟩ := List.mem_iff_getElem?.mp hchild
  refine ⟨i :: path, ?_⟩
  rw [descend, hi]
  exact h

section Rel

variable {R : Json → Json → Prop}

/-- The relation holds at every path. -/
def Everywhere (R : Json → Json → Prop) (value value' : Json) : Prop :=
  ∀ path, Option.Rel R (value.descend path) (value'.descend path)

theorem forall₂_everywhere {values values' : List Json}
    (h : ∀ (i : Nat) path,
      Option.Rel R (values[i]?.bind (descend path)) (values'[i]?.bind (descend path))) :
    List.Forall₂ (Everywhere R) values values' := by
  induction values generalizing values' with
  | nil =>
      cases values' with
      | nil => exact .nil
      | cons value' values' => cases h 0 []
  | cons value values ih =>
      cases values' with
      | nil => cases h 0 []
      | cons value' values' => exact .cons (h 0) (ih fun i => h (i + 1))

theorem rel_of_forall₂ {values values' : List Json}
    (h : List.Forall₂ (Everywhere R) values values') (i : Nat) (path : List Nat) :
    Option.Rel R (values[i]?.bind (descend path)) (values'[i]?.bind (descend path)) := by
  induction h generalizing i with
  | nil => exact .none
  | cons hhead _ ih =>
      cases i with
      | zero => exact hhead path
      | succ i => exact ih i

theorem everywhere_iff {value value' : Json} :
    Everywhere R value value' ↔
      R value value' ∧ List.Forall₂ (Everywhere R) value.children value'.children := by
  constructor
  · intro h
    refine ⟨?_, forall₂_everywhere fun i path => h (i :: path)⟩
    cases h [] with
    | some hnode => exact hnode
  · intro h path
    cases path with
    | nil => exact .some h.1
    | cons i path => exact rel_of_forall₂ h.2 i path

theorem forall₂_congr {S S' : Json → Json → Prop} {values values' : List Json}
    (h : ∀ value ∈ values, ∀ value', S value value' ↔ S' value value') :
    List.Forall₂ S values values' ↔ List.Forall₂ S' values values' := by
  induction values generalizing values' with
  | nil => rw [List.forall₂_nil_left_iff, List.forall₂_nil_left_iff]
  | cons value values ih =>
      obtain ⟨hhead, hrest⟩ := List.forall_mem_cons.mp h
      simp only [List.forall₂_cons_left_iff, hhead, ih hrest]

/-- A relation that is, at each value, `R` there and itself at the children. -/
theorem iff_everywhere {S : Json → Json → Prop}
    (h : ∀ value value', S value value' ↔
      R value value' ∧ List.Forall₂ S value.children value'.children)
    (value value' : Json) : S value value' ↔ Everywhere R value value' := by
  induction value using children_induction generalizing value' with
  | h value ih =>
      rw [h, everywhere_iff, forall₂_congr ih]

end Rel

end FlyVault.Lib.Json
