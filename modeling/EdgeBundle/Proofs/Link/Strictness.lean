import EdgeBundle.Proofs.Link.Success

/-!
# Strictness

A strict link refuses what a lenient one only warns of: builtins without stand-in, which are bound
to empty objects, and references that are not satisfied. All else is the same. The proof goes
through both links step by step: a strict step has exactly the values that the lenient step has
without such a warning.

## Main definitions

* `Config.withStrictness`: a configuration that is strict or lenient in all respects.
* `Logged.Tightens`: a strict step beside its lenient form.

## Main statements

* `Logged.Tightens.bind`: steps in a row.
* `LinkedModule.tightens_ofSource`: linking a module.
* `linkRecords_strict_iff`: linking records.
-/

namespace EdgeBundle

/-- The configuration with all checks strict, or all of them lenient. -/
def Config.withStrictness (config : Config) (strict : Bool) : Config :=
  { config with strictBuiltins := strict, strictReferences := strict }

/-- Whether a builtin without stand-in is bound to an empty object. -/
def Warning.isNoPolyfill : Warning → Bool
  | noPolyfill .. => true
  | _ => false

namespace Logged

variable {ε α β : Type}

/-! ## Steps that bind nothing to an empty object -/

/-- No builtin is bound to an empty object. -/
def IsComplete (x : Logged ε α) : Prop :=
  ∀ w ∈ x.warnings, w.isNoPolyfill = false

theorem isComplete_pure (a : α) : (pure a : Logged ε α).IsComplete :=
  fun _ hw => absurd hw List.not_mem_nil

theorem isComplete_throw (e : ε) : (throw e : Logged ε α).IsComplete :=
  fun _ hw => absurd hw List.not_mem_nil

theorem isComplete_ofExcept (r : Except ε α) : (ofExcept r).IsComplete :=
  fun _ hw => absurd hw List.not_mem_nil

theorem isComplete_warn {w : Warning} (h : w.isNoPolyfill = false) :
    (warn w : Logged ε Unit).IsComplete :=
  fun _ hw => List.mem_singleton.mp hw ▸ h

theorem warnings_bind_of_ok {x : Logged ε α} {a : α} (h : x.result = .ok a)
    (f : α → Logged ε β) : (x >>= f).warnings = x.warnings ++ (f a).warnings := by
  change (Logged.bind x f).warnings = x.warnings ++ (f a).warnings
  rw [Logged.bind, h]

theorem warnings_bind_of_error {x : Logged ε α} {e : ε} (h : x.result = .error e)
    (f : α → Logged ε β) : (x >>= f).warnings = x.warnings := by
  change (Logged.bind x f).warnings = x.warnings
  rw [Logged.bind, h]

theorem isComplete_bind_iff {x : Logged ε α} {a : α} (h : x.result = .ok a)
    {f : α → Logged ε β} : (x >>= f).IsComplete ↔ x.IsComplete ∧ (f a).IsComplete := by
  rw [IsComplete, warnings_bind_of_ok h]
  exact List.forall_mem_append

theorem IsComplete.bind {x : Logged ε α} (hx : x.IsComplete) {f : α → Logged ε β}
    (hf : ∀ a, (f a).IsComplete) : (x >>= f).IsComplete := by
  cases hresult : x.result with
  | error e => rwa [IsComplete, warnings_bind_of_error hresult]
  | ok a => exact (isComplete_bind_iff hresult).mpr ⟨hx, hf a⟩

/-! ## Strict steps -/

/-- The strict step has exactly those values of the lenient one that satisfy `P` and come without a
builtin that is bound to an empty object. -/
structure Tightens (P : α → Prop) (strict lenient : Logged ε α) : Prop where
  /-- The values of both steps. -/
  result_eq_ok_iff : ∀ a,
    strict.result = .ok a ↔ lenient.result = .ok a ∧ lenient.IsComplete ∧ P a

/-- A step that is the same in both links. -/
theorem IsComplete.tightens {x : Logged ε α} (hx : x.IsComplete) {P : α → Prop}
    (hP : ∀ a, x.result = .ok a → P a) : Tightens P x x :=
  ⟨fun a => ⟨fun h => ⟨h, hx, hP a h⟩, And.left⟩⟩

theorem IsComplete.tightens_self {x : Logged ε α} (hx : x.IsComplete) :
    Tightens (fun _ => True) x x :=
  hx.tightens fun _ _ => trivial

/-- Steps in a row, where what the second step has to satisfy includes what the first one has to. -/
theorem Tightens.bind {P : α → Prop} {Q : β → Prop} {strict lenient : Logged ε α}
    {f g : α → Logged ε β} (h : Tightens P strict lenient)
    (hf : ∀ a, P a → Tightens Q (f a) (g a))
    (hP : ∀ a b, (g a).result = .ok b → Q b → P a) :
    Tightens Q (strict >>= f) (lenient >>= g) := by
  refine ⟨fun b => ?_⟩
  rw [result_bind_eq_ok_iff, result_bind_eq_ok_iff]
  constructor
  -- strict steps are lenient steps, and neither of them warns
  · rintro ⟨a, ha, hb⟩
    obtain ⟨hlenient, hcomplete, hPa⟩ := (h.result_eq_ok_iff a).mp ha
    obtain ⟨hrest, hcomplete', hQb⟩ := ((hf a hPa).result_eq_ok_iff b).mp hb
    exact ⟨⟨a, hlenient, hrest⟩, (isComplete_bind_iff hlenient).mpr ⟨hcomplete, hcomplete'⟩, hQb⟩
  -- the first strict step needs `P`, which only the value of the second step shows
  · rintro ⟨⟨a, ha, hb⟩, hcomplete, hQb⟩
    obtain ⟨hfirst, hsecond⟩ := (isComplete_bind_iff ha).mp hcomplete
    have hPa := hP a b hb hQb
    exact ⟨a, (h.result_eq_ok_iff a).mpr ⟨ha, hfirst, hPa⟩,
      ((hf a hPa).result_eq_ok_iff b).mpr ⟨hb, hsecond, hQb⟩⟩

theorem Tightens.bind_true {Q : β → Prop} {strict lenient : Logged ε α} {f g : α → Logged ε β}
    (h : Tightens (fun _ => True) strict lenient) (hf : ∀ a, Tightens Q (f a) (g a)) :
    Tightens Q (strict >>= f) (lenient >>= g) :=
  h.bind (fun a _ => hf a) fun _ _ _ _ => trivial

/-- A strict step for every item of a list. -/
theorem tightens_mapM {f g : α → Logged ε β} (h : ∀ a, Tightens (fun _ => True) (f a) (g a))
    (xs : List α) : Tightens (fun _ => True) (xs.mapM f) (xs.mapM g) := by
  induction xs with
  | nil => exact (isComplete_pure _).tightens_self
  | cons x xs ih =>
    rw [List.mapM_cons, List.mapM_cons]
    exact (h x).bind_true fun y => ih.bind_true fun ys => (isComplete_pure _).tightens_self

end Logged

open Logged

/-! ## Modules -/

namespace LinkedModule

variable {path : RelPath} {builtinHead : String}

/-- Where a strict module reads from. -/
theorem Site.tightens_source (specifier : String) (kind : ReferenceKind) (line : Nat) :
    Tightens (fun _ => True) (source ⟨path, builtinHead, true⟩ specifier kind line)
      (source ⟨path, builtinHead, false⟩ specifier kind line) := by
  refine (isComplete_ofExcept _).tightens_self.bind_true fun target => ?_
  cases target with
  | relative target => exact (isComplete_pure _).tightens_self
  | bare target => exact (isComplete_pure _).tightens_self
  | builtin name polyfill =>
    cases polyfill with
    | some expression => exact (isComplete_pure _).tightens_self
    -- the strict module ends in an error, the lenient one goes on with a warning
    | none =>
      refine ⟨fun a => ⟨fun h => ?_, fun ⟨_, hcomplete, _⟩ => ?_⟩⟩
      · cases h
      · have hwarning := hcomplete (.noPolyfill path.text line name) List.mem_cons_self
        cases hwarning

theorem tightens_effect (line : Nat) (s : Statement) :
    Tightens (fun _ => True) (effect ⟨path, builtinHead, true⟩ line s)
      (effect ⟨path, builtinHead, false⟩ line s) := by
  obtain ⟨start, stop, form⟩ := s
  cases form with
  | bareImport specifier =>
    refine (isComplete_ofExcept _).tightens_self.bind_true fun target => ?_
    split
    · exact (isComplete_pure _).tightens_self
    · exact Tightens.bind_true (Site.tightens_source ..) fun _ =>
        (isComplete_pure _).tightens_self
  | importFrom clause specifier =>
    exact Tightens.bind_true (Site.tightens_source ..) fun _ => (isComplete_pure _).tightens_self
  | importCall specifier =>
    refine (isComplete_ofExcept _).tightens_self.bind_true fun target => ?_
    split
    -- a call that names a builtin stays as it is
    · exact (isComplete_pure _).tightens_self
    · refine Tightens.bind_true (Site.tightens_source ..) fun ⟨source, reference⟩ => ?_
      cases source <;> exact (isComplete_pure _).tightens_self
  | computedImport =>
    exact (IsComplete.bind (isComplete_warn rfl) fun _ => isComplete_pure _).tightens_self
  | exportNames names => exact (isComplete_pure _).tightens_self
  | exportNamesFrom names specifier =>
    exact Tightens.bind_true (Site.tightens_source ..) fun _ => (isComplete_pure _).tightens_self
  | exportAll asName specifier =>
    cases asName <;>
      exact Tightens.bind_true (Site.tightens_source ..) fun _ =>
        (isComplete_pure _).tightens_self
  | exportDefaultDeclaration name => exact (isComplete_pure _).tightens_self
  | exportDefault => exact (isComplete_pure _).tightens_self
  | exportDeclaration name => exact (isComplete_pure _).tightens_self

theorem tightens_effectsOf (config : Config) (path : RelPath) (src : String) :
    Tightens (fun _ => True) (effectsOf (config.withStrictness true) path src)
      (effectsOf (config.withStrictness false) path src) := by
  refine (isComplete_ofExcept _).tightens_self.bind_true fun tokens => ?_
  refine (tightens_mapM (fun s => tightens_effect _ s) _).bind_true fun effects => ?_
  refine IsComplete.tightens_self ?_
  dsimp only
  split
  · exact (isComplete_throw _).bind fun _ => isComplete_pure _
  · exact isComplete_pure _

/-- Linking a module strictly. -/
theorem tightens_ofSource (config : Config) (path : RelPath) (src : String) :
    Tightens (fun _ => True) (ofSource (config.withStrictness true) path src)
      (ofSource (config.withStrictness false) path src) :=
  (tightens_effectsOf config path src).bind_true fun _ => (isComplete_pure _).tightens_self

/-! ## References -/

/-- The strict check gives what the lenient one gives without a finding. -/
theorem tightens_checkReferences (modules : List LinkedModule) :
    Tightens (fun found => found = []) (checkReferences modules true)
      (checkReferences modules false) := by
  -- findings are warned of too, but these warnings are of another kind
  have hcomplete : (checkReferences modules false).IsComplete := by
    rw [checkReferences, forM_warn]
    refine IsComplete.bind ?_ fun _ => ?_
    · intro w hw
      obtain ⟨f, -, rfl⟩ := List.mem_map.mp hw
      rfl
    · cases findings modules <;> exact isComplete_pure _
  refine ⟨fun found => ?_⟩
  rw [result_checkReferences_eq_ok_iff, result_checkReferences_eq_ok_iff]
  constructor
  · rintro ⟨rfl, hstrict⟩
    exact ⟨⟨rfl, fun h => by cases h⟩, hcomplete, hstrict rfl⟩
  · rintro ⟨⟨rfl, -⟩, -, hnone⟩
    exact ⟨rfl, fun _ => hnone⟩

end LinkedModule

/-! ## Records -/

theorem isComplete_orderRecords {ε : Type} (config : Config) (records : List Record) :
    (orderRecords config records : Logged ε _).IsComplete := by
  rw [orderRecords]
  split
  · exact isComplete_pure _
  · exact (isComplete_warn rfl).bind fun _ => isComplete_pure _

theorem Patch.isComplete_applyAll {ε : Type} (patches : List Patch) (text : List Char) :
    (applyAll patches text : Logged ε _).IsComplete := by
  induction patches generalizing text with
  | nil => exact isComplete_pure _
  | cons p ps ih =>
    rw [applyAll]
    dsimp only
    split
    · exact (isComplete_warn rfl).bind fun _ => (ih _).bind fun _ => isComplete_pure _
    · exact (ih _).bind fun _ => isComplete_pure _

theorem Bundle.isComplete_assemble (config : Config) (patches : List Patch)
    (modules : List LinkedModule) (vfs : Vfs) :
    (assemble config patches modules vfs).IsComplete :=
  (Patch.isComplete_applyAll _ _).bind fun _ =>
    (isComplete_ofExcept _).bind fun _ => isComplete_pure _

/-- Only linking modules and checking references look at the strictness. -/
theorem LinkOutput.ofRecords_withStrictness (config : Config) (strict : Bool)
    (records : List Record) :
    ofRecords (config.withStrictness strict) records = (do
      let ordered ← orderRecords config
        (Record.select .executable config.clientAssetPrefix records)
      let modules ← ordered.mapM fun r =>
        LinkedModule.ofSource (config.withStrictness strict) r.path r.content
      let findings ← LinkedModule.checkReferences modules strict
      let bundle ← Bundle.assemble config Patch.defaults modules
        (Vfs.ofRecords (Record.select .embeddable config.clientAssetPrefix records))
      return ⟨bundle, modules,
        Vfs.ofRecords (Record.select .embeddable config.clientAssetPrefix records),
        (Record.select .dropped config.clientAssetPrefix records).map (·.path), findings,
        records.length⟩) := by
  rw [ofRecords, ofRecordsBy]
  simp only [collect_map]
  rfl

theorem LinkOutput.tightens_ofRecords (config : Config) (records : List Record) :
    Tightens (fun output => output.findings = []) (ofRecords (config.withStrictness true) records)
      (ofRecords (config.withStrictness false) records) := by
  rw [ofRecords_withStrictness, ofRecords_withStrictness]
  refine (isComplete_orderRecords _ _).tightens_self.bind_true fun ordered => ?_
  have hmodules := tightens_mapM
    (fun r : Record => LinkedModule.tightens_ofSource config r.path r.content) ordered
  refine hmodules.bind_true fun modules => ?_
  -- what is found is part of what the rest of the link gives
  refine (LinkedModule.tightens_checkReferences modules).bind ?_ ?_
  · intro found hnone
    have hrest := Bundle.isComplete_assemble config Patch.defaults modules
      (Vfs.ofRecords (Record.select .embeddable config.clientAssetPrefix records))
    refine (hrest.bind fun _ => isComplete_pure _).tightens fun output houtput => ?_
    obtain ⟨bundle, -, h⟩ := result_bind_eq_ok_iff.mp houtput
    cases h
    exact hnone
  · intro found output houtput hnone
    obtain ⟨bundle, -, h⟩ := result_bind_eq_ok_iff.mp houtput
    cases h
    exact hnone

/-- Linking strictly only refuses: a strict link gives exactly what the lenient link gives where it
finds nothing and binds no builtin to an empty object. -/
theorem linkRecords_strict_iff (config : Config) (records : List Record) (output : LinkOutput) :
    (linkRecords (config.withStrictness true) records).result = .ok output ↔
      (linkRecords (config.withStrictness false) records).result = .ok output ∧
      (∀ w ∈ (linkRecords (config.withStrictness false) records).warnings,
        w.isNoPolyfill = false) ∧
      output.findings = [] := by
  have hlink : Tightens (fun output => output.findings = [])
      (linkRecords (config.withStrictness true) records)
      (linkRecords (config.withStrictness false) records) := by
    -- a configuration is usable or not, however strict it is
    have hvalid : (ofExcept config.validate).IsComplete := isComplete_ofExcept _
    exact hvalid.tightens_self.bind_true fun _ => LinkOutput.tightens_ofRecords config records
  exact hlink.result_eq_ok_iff output

end EdgeBundle
