import EdgeBundle.Bundle.Assemble
import EdgeBundle.Proofs.Bundle.Script
import EdgeBundle.Proofs.Patch.Default

/-!
# Every bundle can be written

Patches change a text or leave it, and the context of the script has all of its fields. So modules
that are linked always come together to a bundle, under every documented engine.

## Main statements

* `Patch.exists_result_applyAll`: patches can be applied to every text.
* `Bundle.result_assembleWith_eq_ok`: the bundle of modules and embedded files.
* `Bundle.exists_assemble_eq_ok`: modules and embedded files always give a bundle.
-/

namespace EdgeBundle

/-- Patches can be applied to every text. -/
theorem Patch.exists_result_applyAll {ε : Type} (patches : List Patch) (text : List Char) :
    ∃ patched, (applyAll patches text : Logged ε _).result = .ok patched := by
  induction patches generalizing text with
  | nil => exact ⟨_, rfl⟩
  | cons p ps ih =>
    obtain ⟨patched, h⟩ := ih (p.apply text).1
    exact ⟨_, result_applyAll_cons h⟩

namespace Bundle

variable {engine : TemplateEngine}

/-- The context of the script has all of its fields. -/
theorem isSome_get?_context (config : Config) (moduleCount : Nat) (vfs : Vfs) (code : String) :
    ∀ f ∈ Template.bundle.fields, ((context config moduleCount vfs code).get? f).isSome := by
  rw [Template.fields_bundle]
  simp [context, Json.get?]

/-- Under a documented engine the bundle is the script around the patched code. -/
theorem result_assembleWith_eq_ok (h : engine.Documented) {config : Config} {patches : List Patch}
    {modules : List LinkedModule} {vfs : Vfs} {code : List Char} {outcomes : List PatchOutcome}
    (hpatched : (Patch.applyAll patches (joinedCode modules).toList : Logged Error _).result =
      .ok (code, outcomes)) :
    (assembleWith engine config patches modules vfs).result =
      .ok ⟨Template.bundle.textIn id (context config modules.length vfs (String.ofList code)),
        outcomes⟩ := by
  have htext := h.renderWith_bundle
    (isSome_get?_context config modules.length vfs (String.ofList code))
  rw [assembleWith]
  refine Logged.result_bind_eq_ok hpatched (Logged.result_bind_eq_ok ?_ (Logged.result_pure _))
  rw [Logged.result_ofExcept, htext]

/-- Modules and embedded files always give a bundle. -/
theorem exists_assemble_eq_ok (config : Config) (patches : List Patch)
    (modules : List LinkedModule) (vfs : Vfs) :
    ∃ bundle, (assemble config patches modules vfs).result = .ok bundle := by
  obtain ⟨patched, hpatched⟩ :=
    Patch.exists_result_applyAll (ε := Error) patches (joinedCode modules).toList
  exact ⟨_, result_assembleWith_eq_ok TemplateEngine.documented_standard hpatched⟩

end Bundle

end EdgeBundle
