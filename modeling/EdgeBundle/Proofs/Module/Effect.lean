import EdgeBundle.Module.Linked
import EdgeBundle.Proofs.Logged

/-!
# Effects of statements

What a statement contributes to its module hangs on its form and on the target of the specifier that
it names. The rules say it of every form at once, so that a property of all effects is proved rule
by rule.

## Main definitions

* `Specifier.source`: what bindings from a target read from.
* `Site.reference?`: the reference that a specifier makes.
* `Site.Binds`: the targets that names can be bound from.
* `Contributes`: the rules.

## Main statements

* `result_source_eq_ok_iff`: what bindings from a specifier read from.
* `result_effect_eq_ok_iff`: a statement has an effect exactly if a rule gives it.
-/

namespace EdgeBundle

/-! ## Targets of specifiers -/

namespace Specifier

variable {target : Specifier}

/-- What bindings from the target read from. -/
def source : Specifier → LinkedModule.Source
  | relative target | bare target => .registry (quoted target)
  | builtin _ (some expression) => .polyfill expression
  | builtin _ none => .empty

/-- All but the builtins are in the registry. -/
theorem exists_source_eq_registry_iff :
    (∃ key, target.source = .registry key) ↔ target.isBuiltin = false := by
  cases target with
  | relative | bare => simp [source, isBuiltin]
  | builtin name polyfill => cases polyfill <;> simp [source, isBuiltin]

end Specifier

namespace LinkedModule

open Logged Statement

namespace Site

variable {site : Site} {specifier : String} {target : Specifier} {kind : ReferenceKind} {line : Nat}

/-- The reference that a specifier makes, if it can be classified and names no builtin. -/
def reference? (site : Site) (specifier : String) (kind : ReferenceKind) (line : Nat) :
    Option Reference :=
  match site.classify specifier with
  | .ok (.relative target) | .ok (.bare target) => some ⟨specifier, target, kind, line⟩
  | .ok (.builtin _ _) | .error _ => none

/-- A builtin makes no reference. -/
theorem reference?_of_isBuiltin (htarget : site.classify specifier = .ok target)
    (hbuiltin : target.isBuiltin = true) : site.reference? specifier kind line = none := by
  rw [reference?, htarget]
  cases target with
  | relative | bare => cases hbuiltin
  | builtin => rfl

/-- Names can be bound from the target of the specifier. -/
structure Binds (site : Site) (specifier : String) (target : Specifier) : Prop where
  /-- The specifier stands for the target. -/
  classify : site.classify specifier = .ok target
  /-- If builtins are strict, then the target has a stand-in. -/
  known : site.strictBuiltins = true → target.source ≠ .empty

/-- Builtins alone can lack a stand-in. -/
theorem binds_of_isBuiltin (htarget : site.classify specifier = .ok target)
    (hbuiltin : target.isBuiltin = false) : site.Binds specifier target where
  classify := htarget
  known _ hempty := by
    obtain ⟨key, hkey⟩ := Specifier.exists_source_eq_registry_iff.mpr hbuiltin
    rw [hempty] at hkey
    cases hkey

/-- Where bindings from a specifier read from is told by its target. -/
theorem result_source_eq_ok_iff {found : Source × Option Reference} :
    (site.source specifier kind line).result = .ok found ↔
      ∃ target, site.Binds specifier target ∧
        found = (target.source, site.reference? specifier kind line) := by
  constructor
  · intro h
    obtain ⟨target, htarget, h⟩ := result_bind_eq_ok_iff.mp h
    rw [result_ofExcept] at htarget
    rw [reference?, htarget]
    cases target with
    | relative | bare => cases h; exact ⟨_, binds_of_isBuiltin htarget rfl, rfl⟩
    -- only a builtin without stand-in can be refused, and only at a strict site
    | builtin name polyfill =>
      cases polyfill with
      | some expression => cases h; exact ⟨_, ⟨htarget, fun _ => nofun⟩, rfl⟩
      | none =>
        dsimp only at h
        split at h
        next =>
          obtain ⟨_, hthrow, -⟩ := result_bind_eq_ok_iff.mp h
          cases hthrow
        next hlax => cases h; exact ⟨_, ⟨htarget, fun hstrict => absurd hstrict hlax⟩, rfl⟩
  · rintro ⟨target, ⟨htarget, hknown⟩, rfl⟩
    rw [reference?, htarget, source, result_bind_of_ok (by rw [result_ofExcept, htarget])]
    cases target with
    | relative | bare => rfl
    | builtin name polyfill =>
      cases polyfill with
      | some expression => rfl
      | none =>
        have hlax : site.strictBuiltins = false :=
          Bool.eq_false_iff.mpr fun hstrict => hknown hstrict rfl
        simp only [hlax]
        rfl

/-- What goes on from the source of a specifier goes on from that of its target. -/
theorem result_source_bind_eq_ok_iff {β : Type} {f : Source × Option Reference → Logged Error β}
    {b : β} :
    (site.source specifier kind line >>= f).result = .ok b ↔
      ∃ target, site.Binds specifier target ∧
        (f (target.source, site.reference? specifier kind line)).result = .ok b := by
  rw [result_bind_eq_ok_iff]
  constructor
  · rintro ⟨found, hfound, h⟩
    obtain ⟨target, hbinds, rfl⟩ := result_source_eq_ok_iff.mp hfound
    exact ⟨target, hbinds, h⟩
  · rintro ⟨target, hbinds, h⟩
    exact ⟨_, result_source_eq_ok_iff.mpr ⟨target, hbinds, rfl⟩, h⟩

end Site

/-! ## Effects of forms -/

/-- What a statement with the span contributes, form by form. -/
inductive Contributes (site : Site) (line start stop : Nat) : Form → Effect → Prop where
  /-- Nothing is bound, so that a missing stand-in does not matter. -/
  | bareImport {specifier : String} {target : Specifier}
      (htarget : site.classify specifier = .ok target) :
      Contributes site line start stop (.bareImport specifier)
        { edit := some ⟨start, stop, ";"⟩, reference := site.reference? specifier .atLoad line }
  /-- Names are bound to members of the target. -/
  | importFrom {clause : ImportClause} {specifier : String} {target : Specifier}
      (hbinds : site.Binds specifier target) :
      Contributes site line start stop (.importFrom clause specifier)
        { edit := some ⟨start, stop, bindingText clause target.source⟩,
          reference := site.reference? specifier .atLoad line }
  /-- A call that names a builtin stays. -/
  | builtinCall {specifier : String} {target : Specifier}
      (htarget : site.classify specifier = .ok target) (hbuiltin : target.isBuiltin = true) :
      Contributes site line start stop (.importCall specifier) {}
  /-- Any other call reads from the registry. -/
  | importCall {specifier key : String} {target : Specifier}
      (htarget : site.classify specifier = .ok target) (hkey : target.source = .registry key) :
      Contributes site line start stop (.importCall specifier)
        { edit := some ⟨start, stop, "Promise.resolve(" ++ registry ++ "[" ++ key ++ "])"⟩,
          reference := site.reference? specifier .onCall line }
  /-- What a computed call reads is not known before it runs. -/
  | computedImport : Contributes site line start stop .computedImport {}
  /-- Names of the module are published. -/
  | exportNames {names : List NamePair} :
      Contributes site line start stop (.exportNames names)
        { edit := some ⟨start, stop, ";"⟩, entries := names.map fun p => (p.asName, p.name) }
  /-- Members of the target are published. -/
  | exportNamesFrom {names : List NamePair} {specifier : String} {target : Specifier}
      (hbinds : site.Binds specifier target) :
      Contributes site line start stop (.exportNamesFrom names specifier)
        { edit := some ⟨start, stop, ";"⟩, reference := site.reference? specifier .atLoad line,
          entries := names.map fun p => (p.asName, target.source.member p.name) }
  /-- The target is published under a name. -/
  | exportAllAs {name specifier : String} {target : Specifier}
      (hbinds : site.Binds specifier target) :
      Contributes site line start stop (.exportAll (some name) specifier)
        { edit := some ⟨start, stop, ";"⟩, reference := site.reference? specifier .atLoad line,
          entries := [(name, target.source.object)] }
  /-- All members of the target are published. -/
  | exportAll {specifier : String} {target : Specifier} (hbinds : site.Binds specifier target) :
      Contributes site line start stop (.exportAll none specifier)
        { edit := some ⟨start, stop, ";"⟩, reference := site.reference? specifier .atLoad line,
          spread := some target.source.object }
  /-- A declaration is published as the default, and stays. -/
  | exportDefaultDeclaration {name : String} :
      Contributes site line start stop (.exportDefaultDeclaration name)
        { edit := some ⟨start, stop, ""⟩, entries := [("default", name)] }
  /-- An expression is assigned to the local for the default. -/
  | exportDefault :
      Contributes site line start stop .exportDefault
        { edit := some ⟨start, stop, defaultLocal ++ " ="⟩, setsDefault := true }
  /-- A declaration is published under its name, and stays. -/
  | exportDeclaration {name : String} :
      Contributes site line start stop (.exportDeclaration name)
        { edit := some ⟨start, stop, ""⟩, entries := [(name, name)] }

section Effects

variable {site : Site} {line : Nat} {s : Statement} {e : Effect}

/-- Each effect comes from a rule. -/
theorem contributes_of_effect (h : (effect site line s).result = .ok e) :
    Contributes site line s.start s.stop s.form e := by
  obtain ⟨start, stop, form⟩ := s
  cases form with
  | bareImport specifier =>
    obtain ⟨target, htarget, h⟩ := result_bind_eq_ok_iff.mp h
    split at h
    next hbuiltin =>
      cases h
      rw [← Site.reference?_of_isBuiltin htarget hbuiltin]
      exact .bareImport htarget
    next =>
      obtain ⟨_, -, h⟩ := Site.result_source_bind_eq_ok_iff.mp h
      cases h
      exact .bareImport htarget
  | importFrom clause specifier =>
    obtain ⟨target, hbinds, h⟩ := Site.result_source_bind_eq_ok_iff.mp h
    cases h
    exact .importFrom hbinds
  | importCall specifier =>
    obtain ⟨target, htarget, h⟩ := result_bind_eq_ok_iff.mp h
    split at h
    next hbuiltin => cases h; exact .builtinCall htarget hbuiltin
    next hbuiltin =>
      -- the target is classified a second time, with the same outcome
      obtain ⟨target', hbinds, h⟩ := Site.result_source_bind_eq_ok_iff.mp h
      obtain rfl := Except.ok.inj (htarget.symm.trans hbinds.classify)
      obtain ⟨key, hkey⟩ := Specifier.exists_source_eq_registry_iff.mpr
        (Bool.eq_false_iff.mpr hbuiltin)
      rw [hkey] at h
      cases h
      exact .importCall htarget hkey
  | computedImport =>
    obtain ⟨_, -, h⟩ := result_bind_eq_ok_iff.mp h
    cases h
    exact .computedImport
  | exportNamesFrom names specifier =>
    obtain ⟨target, hbinds, h⟩ := Site.result_source_bind_eq_ok_iff.mp h
    cases h
    exact .exportNamesFrom hbinds
  | exportAll asName specifier =>
    cases asName with
    | none =>
      obtain ⟨target, hbinds, h⟩ := Site.result_source_bind_eq_ok_iff.mp h
      cases h
      exact .exportAll hbinds
    | some name =>
      obtain ⟨target, hbinds, h⟩ := Site.result_source_bind_eq_ok_iff.mp h
      cases h
      exact .exportAllAs hbinds
  | exportNames names => cases h; exact .exportNames
  | exportDefaultDeclaration name => cases h; exact .exportDefaultDeclaration
  | exportDefault => cases h; exact .exportDefault
  | exportDeclaration name => cases h; exact .exportDeclaration

/-- What a rule gives is the effect. -/
theorem Contributes.result_effect (h : Contributes site line s.start s.stop s.form e) :
    (effect site line s).result = .ok e := by
  obtain ⟨start, stop, form⟩ := s
  cases h with
  | @bareImport specifier target htarget =>
    refine (result_bind_of_ok htarget _).trans ?_
    cases hbuiltin : target.isBuiltin with
    | true =>
      rw [if_pos rfl, Site.reference?_of_isBuiltin htarget hbuiltin]
      rfl
    | false =>
      rw [if_neg Bool.false_ne_true]
      exact Site.result_source_bind_eq_ok_iff.mpr
        ⟨target, Site.binds_of_isBuiltin htarget hbuiltin, rfl⟩
  | builtinCall htarget hbuiltin =>
    refine (result_bind_of_ok htarget _).trans ?_
    rw [if_pos hbuiltin]
    rfl
  | @importCall specifier key target htarget hkey =>
    -- a call of a module in the registry is no call of a builtin
    have hbuiltin := Specifier.exists_source_eq_registry_iff.mp ⟨key, hkey⟩
    refine (result_bind_of_ok htarget _).trans ?_
    rw [if_neg (Bool.eq_false_iff.mp hbuiltin), Site.result_source_bind_eq_ok_iff]
    refine ⟨target, Site.binds_of_isBuiltin htarget hbuiltin, ?_⟩
    rw [hkey]
    rfl
  | importFrom hbinds => exact Site.result_source_bind_eq_ok_iff.mpr ⟨_, hbinds, rfl⟩
  | exportNamesFrom hbinds => exact Site.result_source_bind_eq_ok_iff.mpr ⟨_, hbinds, rfl⟩
  | exportAllAs hbinds => exact Site.result_source_bind_eq_ok_iff.mpr ⟨_, hbinds, rfl⟩
  | exportAll hbinds => exact Site.result_source_bind_eq_ok_iff.mpr ⟨_, hbinds, rfl⟩
  | computedImport | exportNames | exportDefaultDeclaration | exportDefault
  | exportDeclaration => rfl

/-- A statement has an effect exactly if a rule gives it. -/
theorem result_effect_eq_ok_iff :
    (effect site line s).result = .ok e ↔ Contributes site line s.start s.stop s.form e :=
  ⟨contributes_of_effect, Contributes.result_effect⟩

/-- A statement of the same form elsewhere contributes the same, but for the span of its change. -/
theorem Contributes.move {start stop : Nat} {form : Form}
    (h : Contributes site line start stop form e) (start' stop' : Nat) :
    Contributes site line start' stop' form
      { e with edit := e.edit.map fun x => ⟨start', stop', x.replacement⟩ } := by
  cases h with
  | bareImport htarget => exact .bareImport htarget
  | importFrom hbinds => exact .importFrom hbinds
  | builtinCall htarget hbuiltin => exact .builtinCall htarget hbuiltin
  | importCall htarget hkey => exact .importCall htarget hkey
  | computedImport => exact .computedImport
  | exportNames => exact .exportNames
  | exportNamesFrom hbinds => exact .exportNamesFrom hbinds
  | exportAllAs hbinds => exact .exportAllAs hbinds
  | exportAll hbinds => exact .exportAll hbinds
  | exportDefaultDeclaration => exact .exportDefaultDeclaration
  | exportDefault => exact .exportDefault
  | exportDeclaration => exact .exportDeclaration

end Effects

end LinkedModule

end EdgeBundle
