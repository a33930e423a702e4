import EdgeBundle.Link.Check
import EdgeBundle.Proofs.Logged

/-!
# Satisfied references

A reference is satisfied if some module has its target as path and, where it is read when its module
runs, stands earlier in the link order. If no two modules have the same path, the check finds
exactly the references that are not satisfied.

## Main definitions

* `IsSatisfied`: satisfied references.

## Main statements

* `position?_eq_some_iff`: the position that the check works with.
* `problem?_eq_none_iff`: no problem is found with exactly the satisfied references.
* `result_checkReferences_eq_ok_iff`: when the check accepts modules, and what it gives then.
-/

namespace EdgeBundle.LinkedModule

open Logged

/-- Whether a reference of the module at position `i` is satisfied. -/
def IsSatisfied (modules : List LinkedModule) (i : Nat) (r : Reference) : Prop :=
  ∃ j m, modules[j]? = some m ∧ m.path.text = r.target ∧ (r.kind = .atLoad → j < i)

variable {modules : List LinkedModule} {target : String} {i : Nat} {r : Reference}

/-! ## Positions -/

theorem eq_of_path_eq (h : (modules.map path).Nodup) {j : Nat} {m m' : LinkedModule}
    (hm : modules[i]? = some m) (hm' : modules[j]? = some m')
    (htext : m.path.text = m'.path.text) : i = j := by
  have hi : (modules.map path)[i]? = some m.path := by simp [hm]
  have hj : (modules.map path)[j]? = some m.path := by simp [hm', RelPath.ext htext]
  exact (List.getElem?_inj (List.getElem?_eq_some_iff.mp hi).1 h).mp (hi.trans hj.symm)

theorem position?_eq_none_iff :
    position? modules target = none ↔ ∀ m ∈ modules, m.path.text ≠ target := by
  simp only [position?, Option.map_eq_none_iff, List.getLast?_eq_none_iff, List.filter_eq_nil_iff,
    beq_iff_eq, Prod.forall, List.mem_zipIdx_iff_getElem?]
  refine ⟨fun h m hm => ?_, fun h m i hm => h m (List.mem_of_getElem? hm)⟩
  obtain ⟨i, hi⟩ := List.mem_iff_getElem?.mp hm
  exact h m i hi

/-- The position is that of a module with the path. -/
theorem exists_of_position?_eq_some (h : position? modules target = some i) :
    ∃ m, modules[i]? = some m ∧ m.path.text = target := by
  obtain ⟨⟨m, j⟩, hlast, rfl⟩ := Option.map_eq_some_iff.mp h
  have hmem := List.mem_of_getLast? hlast
  rw [List.mem_filter, List.mem_zipIdx_iff_getElem?] at hmem
  exact ⟨m, hmem.1, by simpa using hmem.2⟩

/-- The position of a path that only one module has. -/
theorem position?_eq_some_iff (h : (modules.map path).Nodup) :
    position? modules target = some i ↔ ∃ m, modules[i]? = some m ∧ m.path.text = target := by
  refine ⟨exists_of_position?_eq_some, fun ⟨m, hm, htext⟩ => ?_⟩
  -- the check takes the last module with the path, and there is no other one
  cases hposition : position? modules target with
  | none => exact absurd htext (position?_eq_none_iff.mp hposition m (List.mem_of_getElem? hm))
  | some j =>
    obtain ⟨m', hm', htext'⟩ := exists_of_position?_eq_some hposition
    rw [eq_of_path_eq h hm hm' (htext.trans htext'.symm)]

/-! ## Problems -/

/-- No problem is found with exactly the satisfied references. -/
theorem problem?_eq_none_iff (h : (modules.map path).Nodup) :
    problem? modules i r = none ↔ IsSatisfied modules i r := by
  have hposition : problem? modules i r = none ↔
      ∃ j, position? modules r.target = some j ∧ (r.kind = .atLoad → j < i) := by
    rw [problem?]
    cases position? modules r.target <;> simp
  -- the position that the check looks at is the only one with the target as path
  rw [hposition, IsSatisfied]
  refine exists_congr fun j => ?_
  rw [position?_eq_some_iff h]
  constructor
  · rintro ⟨⟨m, hm, htext⟩, hbefore⟩
    exact ⟨m, hm, htext, hbefore⟩
  · rintro ⟨m, hm, htext, hbefore⟩
    exact ⟨⟨m, hm, htext⟩, hbefore⟩

/-- Nothing is found exactly if every reference is satisfied. -/
theorem findings_eq_nil_iff (h : (modules.map path).Nodup) :
    findings modules = [] ↔
      ∀ i m, modules[i]? = some m → ∀ r ∈ m.references, IsSatisfied modules i r := by
  simp only [findings, List.flatMap_eq_nil_iff, List.filterMap_eq_nil_iff, Option.map_eq_none_iff,
    problem?_eq_none_iff h, Prod.forall, List.mem_zipIdx_iff_getElem?]
  exact forall_comm

/-! ## The check -/

theorem forM_warn {α ε : Type} (f : α → Warning) (xs : List α) :
    (xs.forM fun x => (Logged.warn (f x) : Logged ε Unit)) = ⟨.ok (), xs.map f⟩ := by
  induction xs with
  | nil => rfl
  | cons x xs ih =>
    rw [List.forM, ih]
    rfl

/-- Modules are accepted unless references are strict and one of them is not satisfied. What is
found is given. -/
theorem result_checkReferences_eq_ok_iff {strict : Bool} {found : List Finding} :
    (checkReferences modules strict).result = .ok found ↔
      found = findings modules ∧ (strict = true → findings modules = []) := by
  rw [checkReferences, forM_warn, result_bind_of_ok rfl]
  cases findings modules with
  | nil => simp [eq_comm]
  | cons first rest => cases strict <;> simp [eq_comm]

end EdgeBundle.LinkedModule
