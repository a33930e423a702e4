import EdgeBundle.Proofs.Link.Check

/-!
# Findings of the reference check

Where every module has a path of its own, the check reports exactly the references that the link
order does not satisfy, each once and in order. Where modules share a path, the check looks at the
last one of them, so that what it accepts still has every static reference behind its target.

## Main definitions

* `Use`: a reference with the module that makes it.
* `Use.HasProblem`: what is wrong with a reference.
* `Reports`: findings that are those of the references with a problem.

## Main statements

* `problem?_eq_some_iff`: the check finds the problem of a reference.
* `reports_findings`: the check reports the references with a problem.
* `checkReferences_exact`: what the lenient check and the strict one give.
-/

namespace EdgeBundle.LinkedModule

open Logged

/-- A reference with the module that makes it and the position of that module in the link order. -/
structure Use where
  /-- Position of the module, from zero. -/
  position : Nat
  /-- The module. -/
  module : LinkedModule
  /-- The reference. -/
  reference : Reference

/-- The references of modules, in link order and in the order of each module. -/
def uses (modules : List LinkedModule) : List Use :=
  modules.zipIdx.flatMap fun (m, i) => m.references.map fun r => ⟨i, m, r⟩

/-- What is wrong with a reference. Either no module has its target as path, or it is read when its
module runs and the module with the path stands no earlier. -/
def Use.HasProblem (modules : List LinkedModule) (u : Use) : ReferenceProblem → Prop
  | .missing => ∀ m ∈ modules, m.path.text ≠ u.reference.target
  | .registeredLater => u.reference.kind = .atLoad ∧
      ∃ j m, modules[j]? = some m ∧ m.path.text = u.reference.target ∧ u.position ≤ j

/-- The findings are one for each reference with a problem, in the order of the references. -/
inductive Reports (modules : List LinkedModule) : List Use → List Finding → Prop
  | nil : Reports modules [] []
  | satisfied {u : Use} {us : List Use} {found : List Finding}
      (hu : ∀ problem, ¬ u.HasProblem modules problem) (hrest : Reports modules us found) :
      Reports modules (u :: us) found
  | unsatisfied {u : Use} {us : List Use} {found : List Finding} {problem : ReferenceProblem}
      (hu : u.HasProblem modules problem) (hrest : Reports modules us found) :
      Reports modules (u :: us) (⟨u.module.path, u.reference, problem⟩ :: found)

variable {modules : List LinkedModule} {u : Use} {problem : ReferenceProblem}

/-! ## Problems of one reference -/

/-- The check finds exactly the problem of a reference, if every module has a path of its own. -/
theorem problem?_eq_some_iff (h : (modules.map path).Nodup) :
    problem? modules u.position u.reference = some problem ↔ u.HasProblem modules problem := by
  rw [problem?]
  cases hposition : position? modules u.reference.target with
  | none =>
    have hnone := position?_eq_none_iff.mp hposition
    cases problem with
    | missing => exact iff_of_true rfl hnone
    | registeredLater =>
      refine iff_of_false (by simp) ?_
      rintro ⟨-, j, m, hm, htext, -⟩
      exact hnone m (List.mem_of_getElem? hm) htext
  | some j =>
    have hfound := (position?_eq_some_iff h).mp hposition
    cases problem with
    | missing =>
      obtain ⟨m, hm, htext⟩ := hfound
      refine iff_of_false (by simp) fun hnone => hnone m (List.mem_of_getElem? hm) htext
    | registeredLater =>
      simp only [ite_eq_left_iff, reduceCtorEq, imp_false, not_not, Use.HasProblem]
      refine and_congr_right fun _ => ⟨fun hle => ?_, ?_⟩
      · obtain ⟨m, hm, htext⟩ := hfound
        exact ⟨j, m, hm, htext, hle⟩
      -- only one position has the path
      · rintro ⟨j', m, hm, htext, hle⟩
        have hj := (position?_eq_some_iff h).mpr ⟨m, hm, htext⟩
        rw [hposition, Option.some.injEq] at hj
        rwa [hj]

/-- What is found no fault with is behind its target, if it is read when its module runs. Of the
modules that share a path the last one counts, and the reference is behind even that one. -/
theorem exists_lt_of_problem?_eq_none (h : problem? modules u.position u.reference = none)
    (hkind : u.reference.kind = .atLoad) :
    ∃ j m, j < u.position ∧ modules[j]? = some m ∧ m.path.text = u.reference.target := by
  rw [problem?] at h
  cases hposition : position? modules u.reference.target with
  | none =>
    rw [hposition] at h
    cases h
  | some j =>
    obtain ⟨m, hm, htext⟩ := exists_of_position?_eq_some hposition
    simp only [hposition, hkind, true_and, ite_eq_right_iff, reduceCtorEq, imp_false,
      Nat.not_le] at h
    exact ⟨j, m, h, hm, htext⟩

/-! ## Problems of all references -/

/-- The finding of a reference. -/
def finding? (modules : List LinkedModule) (u : Use) : Option Finding :=
  (problem? modules u.position u.reference).map fun problem => ⟨u.module.path, u.reference, problem⟩

theorem findings_eq_filterMap (modules : List LinkedModule) :
    findings modules = (uses modules).filterMap (finding? modules) := by
  rw [findings, uses, List.filterMap_flatMap]
  refine List.flatMap_congr fun p _ => ?_
  rw [List.filterMap_map]
  rfl

/-- The findings of references are one for each that has a problem. -/
theorem reports_filterMap (h : (modules.map path).Nodup) (us : List Use) :
    Reports modules us (us.filterMap (finding? modules)) := by
  induction us with
  | nil => exact .nil
  | cons u us ih =>
    rw [List.filterMap_cons, finding?]
    cases hproblem : problem? modules u.position u.reference with
    | none =>
      refine .satisfied (fun problem hu => ?_) ih
      rw [(problem?_eq_some_iff h).mpr hu] at hproblem
      cases hproblem
    | some problem => exact .unsatisfied ((problem?_eq_some_iff h).mp hproblem) ih

theorem reports_findings (h : (modules.map path).Nodup) :
    Reports modules (uses modules) (findings modules) :=
  findings_eq_filterMap modules ▸ reports_filterMap h (uses modules)

theorem Reports.eq_nil_iff {us : List Use} {found : List Finding} (h : Reports modules us found) :
    found = [] ↔ ∀ u ∈ us, ∀ problem, ¬ u.HasProblem modules problem := by
  induction h with
  | nil => simp
  | satisfied hu _ ih => rw [ih, List.forall_mem_cons, and_iff_right hu]
  | @unsatisfied u us found problem hu _ _ =>
    exact iff_of_false (List.cons_ne_nil _ _) fun h => h u List.mem_cons_self problem hu

/-! ## The check -/

/-- Where every module has a path of its own, the lenient check gives one finding for each reference
with a problem, in order, and the strict check accepts the modules exactly if there is none; else it
names the first one. What the strict check accepts has every reference that is read when its module
runs behind its target, also where modules share a path. -/
theorem checkReferences_exact (modules : List LinkedModule) :
    ((modules.map path).Nodup →
      ∃ found, Reports modules (uses modules) found ∧
        (checkReferences modules false).result = .ok found ∧
        ((checkReferences modules true).result = .ok [] ↔
          ∀ u ∈ uses modules, ∀ problem, ¬ u.HasProblem modules problem) ∧
        ∀ first later, found = first :: later →
          (checkReferences modules true).result =
            .error (.unresolvedReference first.module.text first.reference.specifier
              (match first.problem with
                | .missing => .notLinked
                | .registeredLater => .linkedLater first.reference.target))) ∧
      ∀ found, (checkReferences modules true).result = .ok found →
        ∀ u ∈ uses modules, u.reference.kind = .atLoad →
          ∃ j m, j < u.position ∧ modules[j]? = some m ∧ m.path.text = u.reference.target := by
  constructor
  · intro h
    have hreports := reports_findings h
    refine ⟨findings modules, hreports, ?_, ?_, fun first later hfound => ?_⟩
    · exact result_checkReferences_eq_ok_iff.mpr ⟨rfl, nofun⟩
    · rw [← hreports.eq_nil_iff, result_checkReferences_eq_ok_iff, eq_comm]
      exact and_iff_left_of_imp fun hnone _ => hnone
    · rw [checkReferences, forM_warn, result_bind_of_ok rfl, hfound]
      rfl
  · intro found hresult u hu hkind
    refine exists_lt_of_problem?_eq_none ?_ hkind
    -- the strict check accepts modules without findings only
    have hnone := (result_checkReferences_eq_ok_iff.mp hresult).2 rfl
    rw [findings_eq_filterMap, List.filterMap_eq_nil_iff] at hnone
    exact Option.map_eq_none_iff.mp (hnone u hu)

/-- Two modules that refer to each other, one of them to itself as well, and the other one to a
module that is not there. -/
def entangled : List LinkedModule :=
  [⟨⟨"a.mjs", by decide⟩, "", [], [⟨"./b.mjs", "b.mjs", .atLoad, 1⟩,
      ⟨"./a.mjs", "a.mjs", .atLoad, 2⟩, ⟨"./b.mjs", "b.mjs", .onCall, 3⟩]⟩,
    ⟨⟨"b.mjs", by decide⟩, "", [], [⟨"./a.mjs", "a.mjs", .atLoad, 1⟩,
      ⟨"./c.mjs", "c.mjs", .onCall, 2⟩]⟩]

/-- A cycle, a reference to the module itself and a missing module. -/
theorem checkReferences_exact_entangled :
    (entangled.map path).Nodup ∧
      ∃ found, Reports entangled (uses entangled) found ∧
        (checkReferences entangled false).result = .ok found ∧
        found.map Finding.problem = [.registeredLater, .registeredLater, .missing] ∧
        (checkReferences entangled true).result =
          .error (.unresolvedReference "a.mjs" "./b.mjs" (.linkedLater "b.mjs")) := by
  have hpaths : (entangled.map path).Nodup := by decide
  obtain ⟨found, hreports, hlenient, -, hstrict⟩ := (checkReferences_exact entangled).1 hpaths
  have hfound : found = [⟨⟨"a.mjs", by decide⟩, ⟨"./b.mjs", "b.mjs", .atLoad, 1⟩, .registeredLater⟩,
      ⟨⟨"a.mjs", by decide⟩, ⟨"./a.mjs", "a.mjs", .atLoad, 2⟩, .registeredLater⟩,
      ⟨⟨"b.mjs", by decide⟩, ⟨"./c.mjs", "c.mjs", .onCall, 2⟩, .missing⟩] :=
    (result_checkReferences_eq_ok_iff.mp hlenient).1.trans (by decide +kernel)
  exact ⟨hpaths, found, hreports, hlenient, by rw [hfound]; rfl, hstrict _ _ hfound⟩

end EdgeBundle.LinkedModule
