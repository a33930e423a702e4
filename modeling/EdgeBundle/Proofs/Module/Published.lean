import EdgeBundle.Proofs.Module.References

/-!
# What a module publishes

The registration at the end of a linked module is made of names of the module and of expressions for
other modules. Names that are published are identifiers of the source, so each member of the object
that is registered has tokens of its own, and they leave no brace open.

## Main definitions

* `Expression.SelfContained`: a text that has tokens of its own wherever it stands.
* `Form.published`: the names of a form that get into the registration.
* `LinkedModule.Manifest.IsReadable`: what is published has tokens.

## Main statements

* `LinkedModule.isReadable_of_effects`: what the statements of a source publish has tokens.
* `LinkedModule.exists_scans_registration`: the tokens of a registration.
-/

namespace EdgeBundle

open Lexer Statement

/-! ## Texts that have tokens of their own -/

namespace Expression

variable {text text' n value : String} {offset : Nat} {new new' : List Token}

namespace Places

/-- Two texts with a comma between them. -/
theorem comma (h : Places text offset new)
    (h' : Places text' (offset + text.utf8ByteSize + 2) new') :
    Places (text ++ ", " ++ text') offset
      (new ++ ⟨.punct, offset + text.utf8ByteSize, ","⟩ :: new') := by
  constructor
  intro ctx rest ts hrest hscan
  have hsize : ", ".utf8ByteSize = 2 := rfl
  have htext : (text ++ ", " ++ text').toList ++ rest =
      text.toList ++ ',' :: ' ' :: (text'.toList ++ rest) := by
    simp
  simp only [String.utf8ByteSize_append, hsize, ← Nat.add_assoc] at hscan
  rw [htext, List.append_assoc, List.cons_append]
  refine h.scans (endsName_cons (by decide)) fun ctx' hctx' => ?_
  exact .punct (by simp) rfl (.blank (h'.scans hrest fun ctx'' hctx'' =>
    hscan ctx'' (hctx''.trans hctx')))

/-- The sign of a rest or spread. -/
theorem spread (h : Places text (offset + 3) new) :
    Places ("..." ++ text) offset (⟨.punct, offset, "..."⟩ :: new) := by
  constructor
  intro ctx rest ts hrest hscan
  have hsize : "...".utf8ByteSize = 3 := rfl
  have htext : ("..." ++ text).toList ++ rest = '.' :: '.' :: '.' :: (text.toList ++ rest) := by
    simp
  rw [String.utf8ByteSize_append, hsize, ← Nat.add_assoc] at hscan
  rw [htext]
  have hstarts : StartsPunct ctx '.' ('.' :: '.' :: (text.toList ++ rest)) := by
    constructor <;> simp [isBlank, isIdentStart]
  exact .token (.punct hstarts) rfl (h.scans hrest hscan)

/-- The sign between parameters and a result. -/
theorem arrow (h : Places text (offset + 4) new) :
    Places (" => " ++ text) offset (⟨.punct, offset + 1, "=>"⟩ :: new) := by
  constructor
  intro ctx rest ts hrest hscan
  have hsize : " => ".utf8ByteSize = 4 := rfl
  have htext : (" => " ++ text).toList ++ rest =
      ' ' :: '=' :: '>' :: ' ' :: (text.toList ++ rest) := by
    simp
  rw [String.utf8ByteSize_append, hsize, ← Nat.add_assoc] at hscan
  rw [htext]
  exact scans_sign (by simp) (h.scans hrest hscan)

/-- Tokens hang on the place of the text by their own places only. -/
theorem unplaced_eq {offset' : Nat} (h : Places text offset new) (h' : Places text offset' new') :
    new.map Token.unplaced = new'.map Token.unplaced := by
  have hrun {offset : Nat} {new : List Token} (h : Places text offset new) :
      Scans {} offset text.toList new := by
    have hscan := @h.scans {} [] [] (by simp [EndsName]) fun _ _ => .done
    rwa [List.append_nil, List.append_nil] at hscan
  obtain ⟨moved, hmoved, hsame⟩ := (hrun h').relocate rfl offset
  rw [(hrun h).unique hmoved, hsame]

/-- Nothing has no tokens. -/
theorem empty : Places "" offset [] :=
  ⟨fun _ hscan => hscan _ rfl⟩

end Places

/-- The text has tokens of its own wherever it stands. -/
def SelfContained (text : String) : Prop :=
  ∀ offset, ∃ new, Places text offset new

theorem Spells.selfContained {e : Expression} (h : Spells text e) : SelfContained text := by
  intro offset
  obtain ⟨new, hplaces, -⟩ := h offset
  exact ⟨new, hplaces⟩

namespace SelfContained

theorem name (h : IsToken .ident n) : SelfContained n :=
  fun _ => ⟨_, .name h⟩

theorem keyed (hn : IsToken .ident n) (h : SelfContained text) :
    SelfContained (n ++ ": " ++ text) := by
  intro offset
  obtain ⟨new, hplaces⟩ := h (offset + n.utf8ByteSize + 2)
  exact ⟨_, .keyed hn hplaces⟩

theorem comma (h : SelfContained text) (h' : SelfContained text') :
    SelfContained (text ++ ", " ++ text') := by
  intro offset
  obtain ⟨new, hplaces⟩ := h offset
  obtain ⟨new', hplaces'⟩ := h' (offset + text.utf8ByteSize + 2)
  exact ⟨_, hplaces.comma hplaces'⟩

theorem spread (h : SelfContained text) : SelfContained ("..." ++ text) := by
  intro offset
  obtain ⟨new, hplaces⟩ := h (offset + 3)
  exact ⟨_, hplaces.spread⟩

theorem parens (h : SelfContained text) : SelfContained ("(" ++ text ++ ")") := by
  intro offset
  obtain ⟨new, hplaces⟩ := h (offset + 1)
  exact ⟨_, hplaces.parens⟩

theorem braces (h : SelfContained text) : SelfContained ("\x7b " ++ text ++ " \x7d") := by
  intro offset
  obtain ⟨new, hplaces⟩ := h (offset + 2)
  exact ⟨_, hplaces.braces⟩

/-- A function of some parameters. -/
theorem arrow (h : SelfContained text) (h' : SelfContained text') :
    SelfContained (text ++ (" => " ++ text')) := by
  intro offset
  obtain ⟨new, hplaces⟩ := h offset
  obtain ⟨new', hplaces'⟩ := h' (offset + text.utf8ByteSize + 4)
  exact ⟨_, hplaces.append hplaces'.arrow String.toList_append (by decide)⟩

/-- A call with one argument. -/
theorem call (h : SelfContained text) (h' : SelfContained text') :
    SelfContained (text ++ ("(" ++ text' ++ ")")) := by
  intro offset
  obtain ⟨new, hplaces⟩ := h offset
  obtain ⟨new', hplaces'⟩ := h'.parens (offset + text.utf8ByteSize)
  have htext : ("(" ++ text' ++ ")").toList = '(' :: (text'.toList ++ [')']) := by
    simp
  exact ⟨_, hplaces.append hplaces' htext (by decide)⟩

theorem pairText (hn : IsToken .ident n) (h : SelfContained value) :
    SelfContained (LinkedModule.pairText n value) := by
  unfold LinkedModule.pairText
  split
  · exact .name hn
  · exact .keyed hn h

theorem commaList {items : List String} (h : ∀ item ∈ items, SelfContained item) :
    SelfContained (LinkedModule.commaList items) := by
  induction items with
  | nil => exact fun _ => ⟨[], .empty⟩
  | cons item items ih =>
    rw [List.forall_mem_cons] at h
    cases items with
    | nil =>
      have hone : LinkedModule.commaList [item] = item := rfl
      rw [hone]
      exact h.1
    | cons next items =>
      have hmore : LinkedModule.commaList (item :: next :: items) =
          item ++ ", " ++ LinkedModule.commaList (next :: items) := by
        apply String.toList_injective
        simp [LinkedModule.commaList, String.toList_intercalate]
      rw [hmore]
      exact h.1.comma (ih h.2)

end SelfContained

end Expression

/-! ## Published names -/

/-- The names of a form that get into the registration. -/
def Form.published : Form → List String
  | .exportNames ps | .exportNamesFrom ps _ => ps.flatMap fun p => [p.name, p.asName]
  | .exportAll asName _ => asName.toList
  | .exportDefaultDeclaration name | .exportDeclaration name => [name]
  | .bareImport _ | .importFrom _ _ | .importCall _ | .computedImport | .exportDefault => []

namespace Statement

/-- The name is that of an identifier. -/
def IsNameIn (ts : List Token) (n : String) : Prop :=
  ∃ t ∈ ts, t.kind = .ident ∧ t.text = n

section Names

variable {ts rest : List Token} {n : String} {form : Form} {stop stop' : Nat}

theorem IsNameIn.of_subset {us : List Token} (h : IsNameIn us n) (hus : us ⊆ ts) :
    IsNameIn ts n := by
  obtain ⟨t, ht, hname⟩ := h
  exact ⟨t, hus ht, hname⟩

theorem IsNameIn.of_tail (h : IsNameIn ts.tail n) : IsNameIn ts n :=
  h.of_subset (List.tail_subset ts)

/-- Names between braces are identifiers there. -/
theorem Names.isNameIn {ps : List NamePair} (h : Names ts ps) :
    ∀ p ∈ ps, IsNameIn ts p.name ∧ IsNameIn ts p.asName := by
  have hitem {item : List Token} {p : NamePair} (h : NameItem item p) :
      IsNameIn item p.name ∧ IsNameIn item p.asName := by
    cases h with
    | @plain t ht => exact ⟨⟨t, by simp, ht, rfl⟩, ⟨t, by simp, ht, rfl⟩⟩
    | @renamed t a u ht ha hu => exact ⟨⟨t, by simp, ht, rfl⟩, ⟨u, by simp, hu, rfl⟩⟩
  induction h with
  | nil => simp
  | last hp => simpa using hitem hp
  | @cons item rest comma p ps hp _ _ ih =>
    rw [List.forall_mem_cons]
    have hleft : item ⊆ item ++ comma :: rest := List.subset_append_left _ _
    have hright : rest ⊆ item ++ comma :: rest := fun t ht => by simp [ht]
    exact ⟨(hitem hp).imp (·.of_subset hleft) (·.of_subset hleft),
      fun q hq => (ih q hq).imp (·.of_subset hright) (·.of_subset hright)⟩

theorem isNameIn_of_headName? (h : headName? ts = some n) : IsNameIn ts n := by
  cases ts with
  | nil => cases h
  | cons t ts =>
    simp only [headName?, List.head?_cons, Option.map_eq_some_iff, Option.filter_eq_some_iff,
      Option.some.injEq, beq_iff_eq] at h
    obtain ⟨_, ⟨rfl, hkind⟩, htext⟩ := h
    exact ⟨t, List.mem_cons_self, hkind, htext⟩

theorem isNameIn_of_declaredName? (h : declaredName? ts = some n) : IsNameIn ts n := by
  -- a word `async` before a function is left out
  have hasync : (if startsWord "async" ts && startsWord "function" ts.tail then ts.tail else ts) ⊆
      ts := by
    split
    · exact List.tail_subset ts
    · exact List.Subset.refl ts
  unfold declaredName? at h
  generalize (if startsWord "async" ts && startsWord "function" ts.tail then ts.tail else ts) = us
    at h hasync
  dsimp only at h
  split at h
  next =>
    split at h
    · exact (isNameIn_of_headName? h).of_tail.of_tail.of_subset hasync
    · exact (isNameIn_of_headName? h).of_tail.of_subset hasync
  split at h
  next =>
    split at h
    · cases h
    · exact (isNameIn_of_headName? h).of_tail.of_subset hasync
  next => cases h

/-- What a form publishes are identifiers after its keyword. -/
theorem isNameIn_of_readForm {k : Token} (hkey : isKeyword k = true)
    (h : readForm k ts = .ok ⟨some form, stop, rest⟩) : ∀ n ∈ form.published, IsNameIn ts n := by
  have hpairs {items : List Token} {ps : List NamePair} (hitems : Names items ps)
      (hin : items ⊆ ts) : ∀ n ∈ ps.flatMap fun p => [p.name, p.asName], IsNameIn ts n := by
    intro n hn
    obtain ⟨p, hp, hn⟩ := List.mem_flatMap.mp hn
    obtain ⟨hname, hasName⟩ := hitems.isNameIn p hp
    simp only [List.mem_cons, List.not_mem_nil, or_false] at hn
    rcases hn with rfl | rfl
    · exact hname.of_subset hin
    · exact hasName.of_subset hin
  cases (readForm_eq_ok_iff hkey).mp h with
  | @static f head rest s _ hhead hs hend =>
    obtain rfl := Option.some.inj (StaticForm.value_of_readEnd hend)
    cases hhead with
    | bare | bindings | all => simp [StaticForm.form, Form.published]
    | names _ _ hitems => exact hpairs hitems fun u hu => by simp [hu]
    | @allAs _ _ _ t _ _ _ _ ht =>
      simpa [StaticForm.form, Form.published] using ⟨t, by simp, ht, rfl⟩
  | names _ _ hitems => exact hpairs hitems fun u hu => by simp [hu]
  | defaultDeclaration _ _ hname =>
    simpa [Form.published] using
      (isNameIn_of_declaredName? hname).of_subset (List.subset_cons_self _ _)
  | variableDeclaration _ _ hname =>
    simpa [Form.published] using
      (isNameIn_of_headName? hname).of_subset (List.subset_cons_self _ _)
  | declaration _ hname => simpa [Form.published] using isNameIn_of_declaredName? hname
  | call | computedCall | default => simp [Form.published]

end Names

end Statement

/-! ## Registrations -/

namespace Lexer

/-- The text of an identifier in a source is an identifier on its own. -/
theorem isToken_of_tokenize {src : String} {ts : List Token} {t : Token} (h : tokenize src = .ok ts)
    (ht : t ∈ ts) (hkind : t.kind = .ident) : IsToken .ident t.text := by
  obtain ⟨ctx, before, c, rest, more, -, -, hl, htext⟩ := exists_lexemeAt_of_tokenize h ht
  rw [hkind] at hl
  obtain ⟨hc, rfl⟩ : (c = '#' ∨ isIdentStart c = true) ∧ more = identLength rest := by
    cases hl with
    | template _ hn => rcases templateLength_kind hn with h | h <;> cases h
    | ident hc => exact ⟨hc, rfl⟩
  have hword : ∀ d ∈ rest.take (identLength rest), isIdentPart d = true := fun d hd =>
    isIdentPart_of_mem_take hd
  generalize rest.take (identLength rest) = word at htext hword
  have hlength : identLength word = word.length := by
    rw [identLength, List.takeWhile_eq_self_iff.mpr hword]
  -- an exclamation mark does not go on with an identifier
  have hbang : hashbangLength t.text.toList = 0 := by
    rw [htext, hashbangLength]
    rintro cs ⟨⟩
    exact absurd (hword '!' List.mem_cons_self) (by decide)
  rw [IsToken, tokenize_eq_ok_iff, hbang, List.take_zero, List.drop_zero, htext]
  refine .token (.ident hc) ?_ ?_
  · rw [hlength, List.take_length, ← htext, String.ofList_toList]
    rfl
  · rw [hlength, List.drop_length]
    exact .done

end Lexer

namespace LinkedModule

open Expression

variable {config : Config} {path : RelPath} {src : String} {effects : List Effect}

/-- What a statement publishes has tokens, if the names in it are identifiers. -/
theorem selfContained_of_effect {site : Site} {line : Nat} {s : Statement} {e : Effect}
    (hnames : ∀ n ∈ s.form.published, IsToken .ident n)
    (h : (effect site line s).result = .ok e) :
    (∀ object ∈ e.spread, SelfContained object) ∧
      ∀ p ∈ e.entries, IsToken .ident p.1 ∧ SelfContained p.2 := by
  obtain ⟨start, stop, form⟩ := s
  -- the names are published as they stand; a source in front of them has tokens of its own
  cases result_effect_eq_ok_iff.mp h with
  | bareImport | importFrom | builtinCall | importCall | computedImport | exportDefault => simp
  | exportNames =>
    refine ⟨by simp, fun p hp => ?_⟩
    obtain ⟨q, hq, rfl⟩ := List.mem_map.mp hp
    have hpair := fun n hn => hnames n (List.mem_flatMap.mpr ⟨q, hq, hn⟩)
    exact ⟨hpair q.asName (by simp), .name (hpair q.name (by simp))⟩
  | exportNamesFrom hbinds =>
    obtain ⟨object, hobject⟩ := exists_denotes hbinds.classify
    refine ⟨by simp, fun p hp => ?_⟩
    obtain ⟨q, hq, rfl⟩ := List.mem_map.mp hp
    have hpair := fun n hn => hnames n (List.mem_flatMap.mpr ⟨q, hq, hn⟩)
    exact ⟨hpair q.asName (by simp), (hobject.spells_member (hpair q.name (by simp))).selfContained⟩
  | exportAll hbinds =>
    obtain ⟨object, hobject⟩ := exists_denotes hbinds.classify
    simpa using hobject.spells_object.selfContained
  | exportAllAs hbinds =>
    obtain ⟨object, hobject⟩ := exists_denotes hbinds.classify
    simpa using ⟨hnames _ (by simp [Form.published]), hobject.spells_object.selfContained⟩
  | @exportDefaultDeclaration n =>
    have hdefault : IsToken .ident "default" := by decide +kernel
    simpa using ⟨hdefault, SelfContained.name (hnames n (by simp [Form.published]))⟩
  | @exportDeclaration n =>
    have hn := hnames n (by simp [Form.published])
    simpa using ⟨hn, SelfContained.name hn⟩

/-- What is published has tokens. -/
structure Manifest.IsReadable (m : Manifest) : Prop where
  /-- Objects whose members are all published have. -/
  spreads : ∀ object ∈ m.spreads, SelfContained object
  /-- Names are identifiers, and their expressions have tokens. -/
  entries : ∀ p ∈ m.entries, IsToken .ident p.1 ∧ SelfContained p.2

/-- What the statements of a source publish has tokens. -/
theorem isReadable_of_effects (h : (effectsOf config path src).result = .ok effects) :
    (Manifest.ofEffects effects).IsReadable := by
  obtain ⟨tokens, htokens, -, heffects⟩ := result_effectsOf_eq_ok_iff.mp h
  have hpublished : ∀ e ∈ effects, (∀ object ∈ e.spread, SelfContained object) ∧
      ∀ p ∈ e.entries, IsToken .ident p.1 ∧ SelfContained p.2 := by
    intro e he
    obtain ⟨s, hs, heffect⟩ := exists_mem_of_forall₂ heffects.flip he
    obtain ⟨used, k, after, rest, hsplit, hkey, -, hread⟩ := exists_readForm_of_mem_outline hs
    refine selfContained_of_effect (fun n hn => ?_) heffect
    -- the names are identifiers among the tokens
    obtain ⟨t, ht, hkind, rfl⟩ := isNameIn_of_readForm hkey hread n hn
    exact isToken_of_tokenize htokens (by simp [hsplit, ht]) hkind
  refine ⟨fun object hobject => ?_, fun p hp => ?_⟩
  · obtain ⟨e, he, hspread⟩ := List.mem_filterMap.mp hobject
    exact (hpublished e he).1 object hspread
  · obtain ⟨e, he, hentry⟩ := List.mem_flatMap.mp hp
    exact (hpublished e he).2 p hentry

/-- Every part of the object that is registered has tokens. -/
theorem Manifest.IsReadable.selfContained {m : Manifest} (h : m.IsReadable) :
    ∀ part ∈ m.parts, SelfContained part := by
  have hnames : IsToken .ident "default" ∧ IsToken .ident "_" ∧ IsToken .ident "rest" ∧
      IsToken .ident defaultLocal := by
    decide +kernel
  obtain ⟨hdefault, hblank, hrest, hlocal⟩ := hnames
  intro part hpart
  simp only [Manifest.parts, List.mem_append, List.mem_map] at hpart
  rcases hpart with (⟨object, hobject, rfl⟩ | ⟨p, hp, rfl⟩) | hpart
  -- a function drops the default of the object
  · have hpattern : SelfContained ("\x7b " ++ ("default" ++ ": " ++ "_" ++ ", " ++
        ("..." ++ "rest")) ++ " \x7d") :=
      ((SelfContained.keyed hdefault (.name hblank)).comma (SelfContained.name hrest).spread).braces
    have hfunction := ((hpattern.parens.arrow (.name hrest)).parens.call
      (h.spreads object hobject)).spread
    have htext : "...((\x7b default: _, ...rest \x7d) => rest)(" ++ object ++ ")" =
        "..." ++ ("(" ++ ("(" ++ ("\x7b " ++ ("default" ++ ": " ++ "_" ++ ", " ++
          ("..." ++ "rest")) ++ " \x7d") ++ ")" ++ (" => " ++ "rest")) ++ ")" ++
            ("(" ++ object ++ ")")) := by
      apply String.toList_injective
      simp
    rw [htext]
    exact hfunction
  · obtain ⟨hname, hvalue⟩ := h.entries p hp
    exact .pairText hname hvalue
  · have htext : part = "default" ++ ": " ++ defaultLocal := by
      split at hpart
      next =>
        rw [List.mem_singleton.mp hpart]
        rfl
      next => cases hpart
    rw [htext]
    exact .keyed hdefault (.name hlocal)

/-- Tokens of an assignment to the registry, without their places. -/
def registrationTokens (path : RelPath) (members : List Token) : List Token :=
  [⟨.ident, 0, "__MODS__"⟩, ⟨.punct, 0, "["⟩, ⟨.str, 0, quoted path.text⟩, ⟨.punct, 0, "]"⟩,
    ⟨.punct, 0, "="⟩, ⟨.punct, 0, "\x7b"⟩] ++ members ++ [⟨.punct, 0, "\x7d"⟩, ⟨.punct, 0, ";"⟩]

/-- The tokens are those of a registration: none, or an assignment to the registry under the quoted
path, of an object with the parts of what is published. -/
structure IsRegistration (path : RelPath) (m : Manifest) (registered : List Token) : Prop where
  /-- Where nothing is published there are none. -/
  eq_nil : m.isEmpty = true → registered = []
  /-- Otherwise an object is assigned. -/
  exists_object : m.isEmpty = false → ∃ object members,
    tokenize ("\x7b " ++ commaList m.parts ++ " \x7d") = .ok object ∧
      object.map Token.unplaced = ⟨.punct, 0, "\x7b"⟩ :: (members ++ [⟨.punct, 0, "\x7d"⟩]) ∧
      registered = registrationTokens path members

/-- The tokens of an assignment to the registry are those of the object in braces, and of what
stands around it. -/
theorem exists_places_assignment {text : String} (h : SelfContained text) (path : RelPath)
    (offset : Nat) :
    ∃ object members registered, tokenize ("\x7b " ++ text ++ " \x7d") = .ok object ∧
      object.map Token.unplaced = ⟨.punct, 0, "\x7b"⟩ :: (members ++ [⟨.punct, 0, "\x7d"⟩]) ∧
      registered.map Token.unplaced = registrationTokens path members ∧
      Places ("__MODS__" ++ ("[" ++ quoted path.text ++ "]") ++ " = " ++
        ("\x7b " ++ text ++ " \x7d") ++ ";") offset registered := by
  have hregistry : IsToken .ident "__MODS__" := by decide +kernel
  have hkey : ("[" ++ quoted path.text ++ "]").toList =
      '[' :: ((quoted path.text).toList ++ [']']) := by
    simp
  have hplace := (@Places.name _ offset hregistry).append (.entry path.text) hkey (by decide)
  obtain ⟨object, hobject⟩ := h.braces 0
  -- the object in the assignment has the same tokens as the object alone, at other places
  obtain ⟨members, hmembers⟩ :=
    h (offset + ("__MODS__" ++ ("[" ++ quoted path.text ++ "]")).utf8ByteSize + 3 + 2)
  refine ⟨object, members.map Token.unplaced, _, tokenize_of_places hobject (by simp), ?_, ?_,
    hplace.assign hmembers.braces⟩
  · rw [hobject.unplaced_eq hmembers.braces]
    simp [Token.unplaced]
  · simp [registrationTokens, Token.unplaced]

/-- What a module publishes has the tokens of a registration, in any context. No brace is left
open. -/
theorem exists_scans_registration {m : Manifest} (h : m.IsReadable) (path : RelPath)
    (offset : Nat) :
    ∃ registered, IsRegistration path m (registered.map Token.unplaced) ∧
      ∀ (ctx : Context) (rest : List Char) (ts : List Token),
        (∀ ctx', ctx'.braces = ctx.braces →
          Scans ctx' (offset + (registration path m).utf8ByteSize) rest ts) →
        Scans ctx offset ((registration path m).toList ++ rest) (registered ++ ts) := by
  cases hempty : m.isEmpty with
  | true =>
    have htext : registration path m = "" := if_pos hempty
    refine ⟨[], ⟨fun _ => rfl, by simp [hempty]⟩, fun ctx rest ts hscan => ?_⟩
    rw [htext] at hscan ⊢
    exact hscan ctx rfl
  | false =>
    obtain ⟨object, members, registered, hobject, hinner, htokens, hplaces⟩ :=
      exists_places_assignment (.commaList h.selfContained) path (offset + 2)
    refine ⟨registered, ⟨by simp [hempty], fun _ => ⟨object, members, hobject, hinner, htokens⟩⟩,
      fun ctx rest ts hscan => ?_⟩
    have htext : registration path m =
        "  " ++ ("__MODS__" ++ ("[" ++ quoted path.text ++ "]") ++ " = " ++
          ("\x7b " ++ commaList m.parts ++ " \x7d") ++ ";") ++ "\n" := by
      rw [← Expression.registryAssignment_eq, registration, if_neg (by simp [hempty])]
      apply String.toList_injective
      simp [registryAssignment, registryRead, registry]
    rw [htext] at hscan ⊢
    generalize "__MODS__" ++ ("[" ++ quoted path.text ++ "]") ++ " = " ++
      ("\x7b " ++ commaList m.parts ++ " \x7d") ++ ";" = text at hplaces hscan ⊢
    have hsize : "  ".utf8ByteSize = 2 ∧ "\n".utf8ByteSize = 1 := ⟨rfl, rfl⟩
    have hline : ("  " ++ text ++ "\n").toList ++ rest =
        ' ' :: ' ' :: (text.toList ++ '\n' :: rest) := by
      simp
    simp only [String.utf8ByteSize_append, hsize, ← Nat.add_assoc] at hscan
    rw [hline]
    -- the assignment is on a line of its own, behind two blanks
    refine .blank (.blank (hplaces.scans (endsName_cons (by decide)) fun ctx' hctx' => ?_))
    exact .gap (.blank rfl) (hscan ctx' hctx')

end LinkedModule

end EdgeBundle
