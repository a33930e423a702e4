import EdgeBundle.Proofs.Link.Success

/-!
# References that follow the groups

The link order puts the groups of modules one after the other. So where every module refers only to
modules of earlier groups, except by calls, every reference is satisfied, and a link that is strict
about references succeeds.

## Main definitions

* `RefersToEarlierGroups`: records whose modules refer in this way.

## Main statements

* `lt_of_rank_lt`: a record of an earlier group stands before.
* `linkRecords_of_refersToEarlierGroups`: such records are linked without findings.
-/

namespace EdgeBundle

open Logged LinkedModule

variable {config : Config} {records : List Record}

/-! ## Places of groups -/

/-- A record of an earlier group stands before. -/
theorem lt_of_rank_lt {i j : Nat} {r t : Record}
    (hr : (linkOrder config records)[i]? = some r) (ht : (linkOrder config records)[j]? = some t)
    (hrank : t.rank config < r.rank config) : j < i := by
  -- otherwise the order has the two groups the wrong way round
  by_contra hle
  obtain ⟨hi, rfl⟩ := List.getElem?_eq_some_iff.mp hr
  obtain ⟨hj, rfl⟩ := List.getElem?_eq_some_iff.mp ht
  rcases Nat.lt_or_eq_of_le (Nat.not_lt.mp hle) with hlt | rfl
  · have hle := List.pairwise_iff_getElem.mp (pairwise_linkOrder config records) i j hi hj hlt
    omega
  · exact Nat.lt_irrefl _ hrank

/-! ## Satisfied references -/

/-- The records have different paths and can be linked, and their modules refer to modules of
earlier groups, or by calls to any of the modules. -/
structure RefersToEarlierGroups (config : Config) (records : List Record) : Prop where
  /-- No two records have the same path. -/
  nodup_paths : (records.map Record.path).Nodup
  /-- Every record becomes a module. Each of its references has a record's path as target, one of an
  earlier group if the module reads it when it runs. -/
  exists_module : ∀ r ∈ records, ∃ m, (ofSource config r.path r.content).result = .ok m ∧
    ∀ ref ∈ m.references, ∃ t ∈ records, t.path.text = ref.target ∧
      (ref.kind = .atLoad → t.rank config < r.rank config)

private theorem toOption_eq_some_iff {ε α : Type} {x : Except ε α} {a : α} :
    x.toOption = some a ↔ x = .ok a := by
  cases x <;> simp [Except.toOption]

instance (config : Config) (records : List Record) :
    Decidable (RefersToEarlierGroups config records) :=
  decidable_of_iff
    ((records.map Record.path).Nodup ∧
      ∀ r ∈ records, ∃ m ∈ (ofSource config r.path r.content).result.toOption,
        ∀ ref ∈ m.references, ∃ t ∈ records, t.path.text = ref.target ∧
          (ref.kind = .atLoad → t.rank config < r.rank config))
    ⟨fun h => ⟨h.1, fun r hr => (h.2 r hr).imp fun _ => And.imp_left toOption_eq_some_iff.mp⟩,
      fun h => ⟨h.nodup_paths, fun r hr => (h.exists_module r hr).imp fun _ =>
        And.imp_left toOption_eq_some_iff.mpr⟩⟩

section Positions

variable {modules : List LinkedModule}
  (hmodules : AreOf config (linkOrder config records) modules)

include hmodules

/-- The record that a module comes from. -/
theorem exists_record_at {i : Nat} {m : LinkedModule} (hm : modules[i]? = some m) :
    ∃ r, (linkOrder config records)[i]? = some r ∧
      (ofSource config r.path r.content).result = .ok m := by
  obtain ⟨hlength, hget⟩ := List.forall₂_iff_get.mp hmodules
  obtain ⟨hi, rfl⟩ := List.getElem?_eq_some_iff.mp hm
  exact ⟨_, List.getElem?_eq_getElem (hlength ▸ hi), hget i (hlength ▸ hi) hi⟩

/-- The module that a record becomes. -/
theorem exists_module_at {t : Record} (ht : t ∈ records) :
    ∃ (j : Nat) (m : LinkedModule), (linkOrder config records)[j]? = some t ∧
      modules[j]? = some m ∧ t.path = m.path := by
  obtain ⟨hlength, hget⟩ := List.forall₂_iff_get.mp hmodules
  obtain ⟨j, hj, rfl⟩ := List.mem_iff_getElem.mp ((linkOrder_perm config records).mem_iff.mpr ht)
  refine ⟨j, _, List.getElem?_eq_getElem hj, List.getElem?_eq_getElem (hlength ▸ hj), ?_⟩
  exact (path_ofSource (hget j hj (hlength ▸ hj))).symm

end Positions

/-- Modules of records in link order satisfy their references. -/
theorem RefersToEarlierGroups.isSatisfied (h : RefersToEarlierGroups config records)
    {modules : List LinkedModule}
    (hmodules : AreOf config (linkOrder config records) modules)
    {i : Nat} {m : LinkedModule} (hm : modules[i]? = some m) {ref : Reference}
    (href : ref ∈ m.references) : IsSatisfied modules i ref := by
  obtain ⟨r, hr, hmodule⟩ := exists_record_at hmodules hm
  have hmem : r ∈ records := (linkOrder_perm config _).mem_iff.mp (List.mem_of_getElem? hr)
  obtain ⟨m', hmodule', hrefs⟩ := h.exists_module r hmem
  cases hmodule.symm.trans hmodule'
  -- the module of the record that is referred to, and its place in the order
  obtain ⟨t, ht, htext, hrank⟩ := hrefs ref href
  obtain ⟨j, m', ht', hm', hpath⟩ := exists_module_at hmodules ht
  exact ⟨j, m', hm', hpath ▸ htext, fun hkind => lt_of_rank_lt hr ht' (hrank hkind)⟩

/-- Records whose modules refer to earlier groups are linked without findings, be references strict
or not, and in the link order every module stands after those that it reads when it runs. -/
theorem linkRecords_of_refersToEarlierGroups (hvalid : config.validate = .ok ())
    (h : RefersToEarlierGroups config
      (Record.select .executable config.clientAssetPrefix records)) (strict : Bool) :
    ∃ output : LinkOutput,
      (linkRecords { config with strictReferences := strict } records).result = .ok output ∧
      output.findings = [] ∧
      ∀ (i : Nat) (m : LinkedModule), output.modules[i]? = some m →
        ∀ ref ∈ m.references, ref.kind = .atLoad →
          ∃ (j : Nat) (m' : LinkedModule), j < i ∧ output.modules[j]? = some m' ∧
            m'.path.text = ref.target := by
  obtain ⟨modules, hmodules⟩ := exists_areOf_linkOrder fun r hr =>
    (h.exists_module r hr).imp fun _ => And.left
  have hnodup : (modules.map LinkedModule.path).Nodup := by
    rw [LinkedModule.map_path_eq hmodules]
    exact ((linkOrder_perm config _).map Record.path).nodup_iff.mpr h.nodup_paths
  have hnone : findings modules = [] :=
    (findings_eq_nil_iff hnodup).mpr fun i m hm ref href => h.isSatisfied hmodules hm href
  obtain ⟨output, hlink, hmods, hfound⟩ := @exists_bundle_linkRecords
    { config with strictReferences := strict } records modules hvalid hmodules fun _ => hnone
  refine ⟨output, hlink, hfound.trans hnone, ?_⟩
  intro i m hm ref href hkind
  rw [hmods] at hm ⊢
  obtain ⟨j, m', hm', htext, hbefore⟩ := h.isSatisfied hmodules hm href
  exact ⟨j, m', hbefore hkind, hm', htext⟩

/-- The entry module reads a route when it runs, the route reads a library and calls for the entry
module. -/
theorem linkRecords_of_refersToEarlierGroups_route :
    ∃ records output, records.map (·.path.text) =
        ["index.mjs", "_routes/home.mjs", "_libs/util.mjs", "robots.txt"] ∧
      Config.validate {} = .ok () ∧
      RefersToEarlierGroups {} (Record.select .executable "public/assets/" records) ∧
      (linkRecords { strictReferences := true } records).result = .ok output ∧
      output.findings = [] := by
  let records : List Record :=
    [⟨⟨"index.mjs", by decide⟩, "import './_routes/home.mjs';", .serverTree⟩,
      ⟨⟨"_routes/home.mjs", by decide⟩,
        "import \x7b a \x7d from '../_libs/util.mjs';\nimport('../index.mjs');", .serverTree⟩,
      ⟨⟨"_libs/util.mjs", by decide⟩, "export const a = 1;", .serverTree⟩,
      ⟨⟨"robots.txt", by decide⟩, "", .serverTree⟩]
  have hvalid : Config.validate {} = .ok () := by decide
  have hrefers : RefersToEarlierGroups {}
      (Record.select .executable "public/assets/" records) := by decide +kernel
  obtain ⟨output, hlink, hnone, -⟩ := linkRecords_of_refersToEarlierGroups hvalid hrefers true
  exact ⟨records, output, rfl, hvalid, hrefers, hlink, hnone⟩

end EdgeBundle
