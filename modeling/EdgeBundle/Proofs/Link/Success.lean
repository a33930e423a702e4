import EdgeBundle.Link
import EdgeBundle.Proofs.Bundle.Assemble
import EdgeBundle.Proofs.Link.Check
import EdgeBundle.Proofs.Link.Order
import EdgeBundle.Proofs.Module.Linked

/-!
# When records can be linked

A link fails for one of three reasons only: the configuration cannot be used, a module cannot be
linked, or references are strict and one of them is not satisfied.

## Main definitions

* `LinkedModule.AreOf`: the modules of records.

## Main statements

* `result_ofRecordsBy_eq_ok_iff` and `result_linkRecords_eq_ok_iff`: linking step by step.
* `exists_linkRecords_eq_ok_iff`: the three reasons.
* `exists_linkRecords_eq_ok`: enough for a link that is not strict about references.
-/

namespace EdgeBundle

open Logged

variable {config : Config} {records : List Record} {modules : List LinkedModule}

/-! ## Linking step by step -/

variable {collect : List (Logged Error LinkedModule) → Logged Error (List LinkedModule)}

namespace LinkOutput

/-- Records can be linked exactly if every module can, the references are accepted, and the bundle
can be written. It makes no difference how the modules are collected. -/
theorem result_ofRecordsBy_eq_ok_iff (hcollect : Collects collect) {output : LinkOutput} :
    (ofRecordsBy collect config records).result = .ok output ↔
      ∃ modules findings bundle,
        List.Forall₂ (fun r m => (LinkedModule.ofSource config r.path r.content).result = .ok m)
          (linkOrder config (Record.select .executable config.clientAssetPrefix records)) modules ∧
        (LinkedModule.checkReferences modules config.strictReferences).result = .ok findings ∧
        (Bundle.assemble config Patch.defaults modules
          (Vfs.ofRecords (Record.select .embeddable config.clientAssetPrefix records))).result =
            .ok bundle ∧
        output = ⟨bundle, modules,
          Vfs.ofRecords (Record.select .embeddable config.clientAssetPrefix records),
          (Record.select .dropped config.clientAssetPrefix records).map Record.path, findings,
          records.length⟩ := by
  simp only [ofRecordsBy, result_bind_eq_ok_iff, result_orderRecords, Except.ok.injEq,
    exists_eq_left', hcollect.result_eq_ok_iff, List.forall₂_map_left_iff, result_pure]
  constructor
  · rintro ⟨modules, hmodules, findings, hfindings, bundle, hbundle, rfl⟩
    exact ⟨modules, findings, bundle, hmodules, hfindings, hbundle, rfl⟩
  · rintro ⟨modules, findings, bundle, hmodules, hfindings, hbundle, rfl⟩
    exact ⟨modules, hmodules, findings, hfindings, bundle, hbundle, rfl⟩

theorem result_ofRecords_eq_ok_iff {output : LinkOutput} :
    (ofRecords config records).result = .ok output ↔
      ∃ modules findings bundle,
        List.Forall₂ (fun r m => (LinkedModule.ofSource config r.path r.content).result = .ok m)
          (linkOrder config (Record.select .executable config.clientAssetPrefix records)) modules ∧
        (LinkedModule.checkReferences modules config.strictReferences).result = .ok findings ∧
        (Bundle.assemble config Patch.defaults modules
          (Vfs.ofRecords (Record.select .embeddable config.clientAssetPrefix records))).result =
            .ok bundle ∧
        output = ⟨bundle, modules,
          Vfs.ofRecords (Record.select .embeddable config.clientAssetPrefix records),
          (Record.select .dropped config.clientAssetPrefix records).map Record.path, findings,
          records.length⟩ :=
  result_ofRecordsBy_eq_ok_iff collects_collect

end LinkOutput

/-- Records are linked only under a usable configuration. -/
theorem result_linkRecords_eq_ok_iff {output : LinkOutput} :
    (linkRecords config records).result = .ok output ↔
      config.validate = .ok () ∧ (LinkOutput.ofRecords config records).result = .ok output :=
  result_bind_eq_ok_iff.trans
    ⟨fun ⟨_, hvalid, h⟩ => ⟨hvalid, h⟩, fun ⟨hvalid, h⟩ => ⟨(), hvalid, h⟩⟩

/-! ## Modules of records -/

/-- A linked module has the path of its source. -/
theorem LinkedModule.path_ofSource {path : RelPath} {src : String} {m : LinkedModule}
    (h : (ofSource config path src).result = .ok m) : m.path = path := by
  obtain ⟨effects, -, rfl⟩ := result_ofSource_eq_ok_iff.mp h
  rfl

/-- Linked modules have the paths of their records. -/
theorem LinkedModule.map_path_eq {modules : List LinkedModule}
    (h : List.Forall₂ (fun r m => (ofSource config r.path r.content).result = .ok m) records
      modules) : modules.map LinkedModule.path = records.map Record.path := by
  induction h with
  | nil => rfl
  | cons hm _ ih => rw [List.map_cons, List.map_cons, path_ofSource hm, ih]

/-- The modules are those of the records, in the same order. -/
def LinkedModule.AreOf (config : Config) (records : List Record) (modules : List LinkedModule) :
    Prop :=
  List.Forall₂ (fun r m => (ofSource config r.path r.content).result = .ok m) records modules

/-- Where every record has a module, there is a list of modules for all of them. -/
theorem LinkedModule.exists_areOf
    (h : ∀ r ∈ records, ∃ m, (ofSource config r.path r.content).result = .ok m) :
    ∃ modules, AreOf config records modules := by
  induction records with
  | nil => exact ⟨[], .nil⟩
  | cons r rs ih =>
    obtain ⟨m, hm⟩ := h r List.mem_cons_self
    obtain ⟨ms, hms⟩ := ih fun r hr => h r (List.mem_cons_of_mem _ hr)
    exact ⟨m :: ms, .cons hm hms⟩

/-- Where every record has a module, there are modules in link order. -/
theorem LinkedModule.exists_areOf_linkOrder
    (h : ∀ r ∈ records, ∃ m, (ofSource config r.path r.content).result = .ok m) :
    ∃ modules, AreOf config (linkOrder config records) modules :=
  exists_areOf fun r hr => h r ((linkOrder_perm config records).mem_iff.mp hr)

/-- A module in link order comes from an executable record. -/
theorem LinkedModule.exists_record
    (h : AreOf config (linkOrder config records) modules) {m : LinkedModule} (hm : m ∈ modules) :
    ∃ r ∈ records, r.path = m.path := by
  have hpaths : (modules.map path).Perm (records.map Record.path) := by
    rw [map_path_eq h]
    exact (linkOrder_perm config records).map Record.path
  exact List.mem_map.mp (hpaths.mem_iff.mp (List.mem_map_of_mem hm))

/-! ## Links that succeed -/

/-- Modules in link order whose references are accepted make a link. -/
theorem exists_bundle_linkRecords (hvalid : config.validate = .ok ())
    (hmodules : LinkedModule.AreOf config
      (linkOrder config (Record.select .executable config.clientAssetPrefix records)) modules)
    (hstrict : config.strictReferences = true → LinkedModule.findings modules = []) :
    ∃ output, (linkRecords config records).result = .ok output ∧ output.modules = modules ∧
      output.findings = LinkedModule.findings modules := by
  obtain ⟨bundle, hbundle⟩ := Bundle.exists_assemble_eq_ok config Patch.defaults modules
    (Vfs.ofRecords (Record.select .embeddable config.clientAssetPrefix records))
  have hcheck := LinkedModule.result_checkReferences_eq_ok_iff.mpr ⟨rfl, hstrict⟩
  have hlink := LinkOutput.result_ofRecords_eq_ok_iff.mpr
    ⟨modules, _, bundle, hmodules, hcheck, hbundle, rfl⟩
  exact ⟨_, result_linkRecords_eq_ok_iff.mpr ⟨hvalid, hlink⟩, rfl, rfl⟩

/-- Records can be linked exactly under a usable configuration, if every module can be linked and,
where references are strict, all of them are satisfied. -/
theorem exists_linkRecords_eq_ok_iff :
    (∃ output, (linkRecords config records).result = .ok output) ↔
      config.validate = .ok () ∧ ∃ modules,
        LinkedModule.AreOf config
          (linkOrder config (Record.select .executable config.clientAssetPrefix records)) modules ∧
        (config.strictReferences = true → LinkedModule.findings modules = []) := by
  constructor
  · rintro ⟨output, h⟩
    obtain ⟨hvalid, hlink⟩ := result_linkRecords_eq_ok_iff.mp h
    obtain ⟨modules, findings, bundle, hmodules, hcheck, -, -⟩ :=
      LinkOutput.result_ofRecords_eq_ok_iff.mp hlink
    exact ⟨hvalid, modules, hmodules, (LinkedModule.result_checkReferences_eq_ok_iff.mp hcheck).2⟩
  · rintro ⟨hvalid, modules, hmodules, hstrict⟩
    obtain ⟨output, h, -, -⟩ := exists_bundle_linkRecords hvalid hmodules hstrict
    exact ⟨output, h⟩

/-- Where references are not strict, records can be linked if every module can. -/
theorem exists_linkRecords_eq_ok (hvalid : config.validate = .ok ())
    (hmodules : ∀ r ∈ Record.select .executable config.clientAssetPrefix records,
      ∃ m, (LinkedModule.ofSource config r.path r.content).result = .ok m)
    (hlenient : config.strictReferences = false) :
    ∃ output, (linkRecords config records).result = .ok output := by
  obtain ⟨modules, hmodules⟩ := LinkedModule.exists_areOf_linkOrder hmodules
  refine exists_linkRecords_eq_ok_iff.mpr ⟨hvalid, modules, hmodules, fun hstrict => ?_⟩
  rw [hlenient] at hstrict
  cases hstrict

end EdgeBundle
