import EdgeBundle.Proofs.Logged
import EdgeBundle.Proofs.Module.Import
import EdgeBundle.Proofs.Module.Outline

/-!
# Statements that name a module

Imports and exports that stand alone and name a module by its specifier, as tokens. Such a statement
is read as its form wherever it stands.

## Main definitions

* `StaticForm`: the forms of such statements.
* `StaticForm.Heads`: the tokens of a statement up to its specifier.
* `StaticForm.readEnd`: what is read of a statement from its specifier on.

## Main statements

* `StaticForm.Heads.readForm_eq`: what is read of a statement.
-/

namespace EdgeBundle

open Statement

/-- The forms of import and export that stand alone and name a module. -/
inductive StaticForm where
  /-- `import 'x'` -/
  | bare
  /-- `import … from 'x'` -/
  | bindings (clause : ImportClause)
  /-- `export { … } from 'x'` -/
  | names (names : List NamePair)
  /-- `export * from 'x'`, or `export * as name from 'x'` -/
  | all (asName : Option String)
  deriving DecidableEq, Repr

namespace StaticForm

/-- The form with a specifier. -/
def form (specifier : String) : StaticForm → Form
  | bare => .bareImport specifier
  | bindings clause => .importFrom clause specifier
  | names ps => .exportNamesFrom ps specifier
  | all asName => .exportAll asName specifier

/-- Whether attributes after the specifier are read as part of the statement. -/
def takesAttributes : StaticForm → Bool
  | bindings _ => true
  | bare | names _ | all _ => false

/-- Skips what may follow the specifier, which ends at `stop`. -/
def skip (f : StaticForm) (stop : Nat) (ts : List Token) : Except SyntaxFault (Nat × List Token) :=
  if f.takesAttributes then skipAttributes stop ts else .ok (stop, ts)

/-- Reads a statement of the form from its specifier on. -/
def readEnd (f : StaticForm) (ts : List Token) : Except SyntaxFault Found := do
  let r ← readSpecifier ts
  let (stop, rest) ← f.skip r.stop r.rest
  let (stop, rest) := takeSemicolon stop rest
  return ⟨some (f.form r.value), stop, rest⟩

/-- The tokens of a statement from its keyword up to its specifier. The comma after the binding of a
default export may be missing. -/
inductive Heads : StaticForm → List Token → Prop
  | bare {k : Token} (hk : k.isWord "import" = true) : Heads bare [k]
  | bindings {k word : Token} {clause : List Token} {c : ImportClause}
      (hk : k.isWord "import" = true) (hclause : Clause clause c ∨ Unseparated clause c)
      (hword : word.isWord "from" = true) : Heads (bindings c) (k :: (clause ++ [word]))
  | names {k opening closing word : Token} {items : List Token} {ps : List NamePair}
      (hk : k.isWord "export" = true) (hopening : opening.isPunct "\x7b" = true)
      (hitems : Names items ps) (hclosing : closing.isPunct "\x7d" = true)
      (hword : word.isWord "from" = true) :
      Heads (names ps) (k :: opening :: (items ++ [closing, word]))
  | all {k star word : Token} (hk : k.isWord "export" = true) (hstar : star.isPunct "*" = true)
      (hword : word.isWord "from" = true) : Heads (all none) [k, star, word]
  | allAs {k star a t word : Token} (hk : k.isWord "export" = true)
      (hstar : star.isPunct "*" = true) (ha : a.isWord "as" = true) (ht : t.kind = .ident)
      (hword : word.isWord "from" = true) : Heads (all (some t.text)) [k, star, a, t, word]

end StaticForm

/-! ## Tokens of names and clauses -/

namespace Statement

/-- Between braces there are words and commas. -/
theorem Names.ident_or_comma {items : List Token} {ps : List NamePair} (h : Names items ps) :
    ∀ t ∈ items, t.kind = .ident ∨ t.isPunct "," = true := by
  have hitem {item : List Token} {p : NamePair} (h : NameItem item p) :
      ∀ t ∈ item, t.kind = .ident := by
    cases h with
    | plain ht => simpa using ht
    | renamed ht ha hu => simpa using ⟨ht, (Token.isWord_iff.mp ha).1, hu⟩
  induction h with
  | nil => simp
  | last hp => exact fun t ht => .inl (hitem hp t ht)
  | cons hp hcomma _ ih =>
    intro t ht
    rcases List.mem_append.mp ht with ht | ht
    · exact .inl (hitem hp t ht)
    · rcases List.mem_cons.mp ht with rfl | ht
      · exact .inr hcomma
      · exact ih t ht

/-- Words and punctuators are no strings. -/
theorem kind_ne_str_of_isWord {t : Token} {w : String} (h : t.isWord w = true) : t.kind ≠ .str := by
  rw [(Token.isWord_iff.mp h).1]
  decide

theorem kind_ne_str_of_isPunct {t : Token} {p : String} (h : t.isPunct p = true) :
    t.kind ≠ .str := by
  rw [(Token.isPunct_iff.mp h).1]
  decide

theorem Names.kind_ne_str {items : List Token} {ps : List NamePair} (h : Names items ps) :
    ∀ t ∈ items, t.kind ≠ .str := by
  intro t ht
  rcases h.ident_or_comma t ht with hident | hcomma
  · rw [hident]
    decide
  · exact kind_ne_str_of_isPunct hcomma

theorem Bindings.kind_ne_str {ts : List Token} {name : Option String}
    {names : Option (List NamePair)} (h : Bindings ts name names) : ∀ t ∈ ts, t.kind ≠ .str := by
  cases h with
  | all hstar ha ht => simp [kind_ne_str_of_isPunct hstar, kind_ne_str_of_isWord ha, ht]
  | names hopening hnames hclosing =>
    intro t ht
    simp only [List.mem_cons, List.mem_append, List.not_mem_nil, or_false] at ht
    rcases ht with rfl | ht | rfl
    · exact kind_ne_str_of_isPunct hopening
    · exact hnames.kind_ne_str t ht
    · exact kind_ne_str_of_isPunct hclosing

/-- No string stands between `import` and `from`. -/
theorem kind_ne_str_of_clause {clause : List Token} {c : ImportClause}
    (h : Clause clause c ∨ Unseparated clause c) : ∀ t ∈ clause, t.kind ≠ .str := by
  rcases h with (⟨ht, -⟩ | hts | ⟨ht, -, hcomma, hts⟩) | ⟨ht, -, hts⟩
  · simp [ht]
  · exact hts.kind_ne_str
  · simpa [ht, kind_ne_str_of_isPunct hcomma] using hts.kind_ne_str
  · simpa [ht] using hts.kind_ne_str

/-- No closing brace comes before the first opening one. -/
def OpensFirst (ts : List Token) : Prop :=
  ∀ t ∈ ts.takeWhile fun t => !t.isPunct "\x7b", t.isPunct "\x7d" = false

theorem opensFirst_nil : OpensFirst [] := by
  simp [OpensFirst]

theorem opensFirst_cons {t : Token} {ts : List Token} :
    OpensFirst (t :: ts) ↔
      t.isPunct "\x7b" = true ∨ t.isPunct "\x7d" = false ∧ OpensFirst ts := by
  by_cases ht : t.isPunct "\x7b" = true <;> simp [OpensFirst, ht]

/-- A closing brace after tokens without braces. -/
theorem not_opensFirst_append {before after : List Token} {closing : Token}
    (hbefore : ∀ t ∈ before, t.isPunct "\x7b" = false) (hclosing : closing.isPunct "\x7d" = true) :
    ¬ OpensFirst (before ++ closing :: after) := by
  have hopening : closing.isPunct "\x7b" = false :=
    Token.isPunct_eq_false_of_ne hclosing (by decide)
  intro h
  have hnot := h closing
  rw [List.takeWhile_append_of_pos (by simpa using hbefore),
    List.takeWhile_cons_of_pos (by simp [hopening])] at hnot
  rw [hnot (by simp)] at hclosing
  cases hclosing

/-- What has no braces may stand before. -/
theorem opensFirst_cons_of_ident {t : Token} {ts : List Token} (ht : t.kind = .ident) :
    OpensFirst (t :: ts) ↔ OpensFirst ts := by
  simp [opensFirst_cons, Token.isPunct, ht]

/-- Bindings open their braces before they close them. -/
theorem Bindings.opensFirst {ts rest : List Token} {name : Option String}
    {names : Option (List NamePair)} (h : Bindings ts name names) (hrest : OpensFirst rest) :
    OpensFirst (ts ++ rest) := by
  cases h with
  | all hstar ha ht =>
    simp only [List.cons_append, List.nil_append]
    rw [opensFirst_cons, opensFirst_cons_of_ident (Token.isWord_iff.mp ha).1,
      opensFirst_cons_of_ident ht]
    exact .inr ⟨Token.isPunct_eq_false_of_ne hstar (by decide), hrest⟩
  | names hopening => exact opensFirst_cons.mpr (.inl hopening)

/-! ## Readings -/

/-- An opening brace starts a list of names. -/
theorem readExport_names {opening : Token} (h : opening.isPunct "\x7b" = true) (stop : Nat)
    (ts : List Token) : readExport stop (opening :: ts) = readExportNames ts := by
  have hparen : opening.isPunct "(" = false := Token.isPunct_eq_false_of_ne h (by decide)
  simp only [readExport, hparen, h, Bool.false_eq_true, if_false, if_true]

/-- An asterisk starts an export of everything. -/
theorem readExport_all {star : Token} (h : star.isPunct "*" = true) (stop : Nat)
    (ts : List Token) : readExport stop (star :: ts) = readExportAll ts := by
  have hother : star.isPunct "(" = false ∧ star.isPunct "\x7b" = false :=
    ⟨Token.isPunct_eq_false_of_ne h (by decide), Token.isPunct_eq_false_of_ne h (by decide)⟩
  simp only [readExport, hother, h, Bool.false_eq_true, if_false, if_true]

end Statement

/-- From its specifier on a statement is read as its form. -/
theorem StaticForm.value_of_readEnd {f : StaticForm} {s : Token} {rest : List Token} {r : Found}
    (h : f.readEnd (s :: rest) = .ok r) : r.value = some (f.form (specifierText s)) := by
  obtain ⟨q, hq, h⟩ := Except.bind_eq_ok_iff.mp h
  obtain ⟨skipped, -, h⟩ := Except.bind_eq_ok_iff.mp h
  obtain ⟨t, -, -, ht, hvalue, -⟩ := readSpecifier_eq_ok_iff.mp hq
  obtain ⟨rfl, -⟩ := List.cons.inj ht
  rw [← Except.ok.inj h, hvalue]

namespace StaticForm.Heads

variable {f : StaticForm} {head : List Token}

/-- A statement starts with a keyword. -/
theorem exists_cons (h : f.Heads head) : ∃ k more, head = k :: more ∧ isKeyword k = true := by
  have hkeyword {k : Token} (hk : k.isWord "import" = true ∨ k.isWord "export" = true) :
      isKeyword k = true := by
    rw [isKeyword, Bool.or_eq_true]
    exact hk
  cases h with
  | bare hk => exact ⟨_, _, rfl, hkeyword (.inl hk)⟩
  | bindings hk => exact ⟨_, _, rfl, hkeyword (.inl hk)⟩
  | names hk => exact ⟨_, _, rfl, hkeyword (.inr hk)⟩
  | all hk => exact ⟨_, _, rfl, hkeyword (.inr hk)⟩
  | allAs hk => exact ⟨_, _, rfl, hkeyword (.inr hk)⟩

/-- The specifier is the first string of a statement. -/
theorem kind_ne_str (h : f.Heads head) : ∀ t ∈ head, t.kind ≠ .str := by
  cases h with
  | bare hk => simp [kind_ne_str_of_isWord hk]
  | bindings hk hclause hword =>
    have hclause := kind_ne_str_of_clause hclause
    simpa [kind_ne_str_of_isWord hk, kind_ne_str_of_isWord hword, or_imp, forall_and] using hclause
  | names hk hopening hitems hclosing hword =>
    have hitems := hitems.kind_ne_str
    simpa [kind_ne_str_of_isWord hk, kind_ne_str_of_isPunct hopening,
      kind_ne_str_of_isPunct hclosing, kind_ne_str_of_isWord hword, or_imp, forall_and] using hitems
  | all hk hstar hword =>
    simp [kind_ne_str_of_isWord hk, kind_ne_str_of_isPunct hstar, kind_ne_str_of_isWord hword]
  | allAs hk hstar ha ht hword =>
    simp [kind_ne_str_of_isWord hk, kind_ne_str_of_isPunct hstar, kind_ne_str_of_isWord ha, ht,
      kind_ne_str_of_isWord hword]

/-- A statement opens braces before it closes any. -/
theorem opensFirst (h : f.Heads head) : OpensFirst head := by
  have hword {t : Token} {w : String} {ts : List Token} (ht : t.isWord w = true) :
      OpensFirst (t :: ts) ↔ OpensFirst ts :=
    opensFirst_cons_of_ident (Token.isWord_iff.mp ht).1
  have hnot {star : Token} (hstar : star.isPunct "*" = true) : star.isPunct "\x7d" = false :=
    Token.isPunct_eq_false_of_ne hstar (by decide)
  cases h with
  | bare hk => exact (hword hk).mpr opensFirst_nil
  | bindings hk hclause hfrom =>
    have hrest := (hword hfrom).mpr opensFirst_nil
    rw [hword hk]
    rcases hclause with (⟨ht, -⟩ | hts | ⟨ht, -, hcomma, hts⟩) | ⟨ht, -, hts⟩
    · exact (opensFirst_cons_of_ident ht).mpr hrest
    · exact hts.opensFirst hrest
    · have hbrace := Token.isPunct_eq_false_of_ne hcomma (q := "\x7d") (by decide)
      exact (opensFirst_cons_of_ident ht).mpr
        (opensFirst_cons.mpr (.inr ⟨hbrace, hts.opensFirst hrest⟩))
    · exact (opensFirst_cons_of_ident ht).mpr (hts.opensFirst hrest)
  | names hk hopening => exact (hword hk).mpr (opensFirst_cons.mpr (.inl hopening))
  | all hk hstar hfrom =>
    rw [hword hk, opensFirst_cons, hword hfrom]
    exact .inr ⟨hnot hstar, opensFirst_nil⟩
  | allAs hk hstar ha ht hfrom =>
    rw [hword hk, opensFirst_cons, hword ha, opensFirst_cons_of_ident ht, hword hfrom]
    exact .inr ⟨hnot hstar, opensFirst_nil⟩

/-! ## Reading a statement -/

/-- A statement starts a form, since no colon follows its keyword. -/
theorem startsForm {k s : Token} {head : List Token} (h : f.Heads (k :: head))
    (hs : s.kind = .str) (rest : List Token) :
    Statement.startsForm false k (head ++ s :: rest) = true := by
  have hkey : isKeyword k = true := by
    obtain ⟨_, _, hcons, hkey⟩ := h.exists_cons
    rwa [(List.cons.inj hcons).1]
  have hnext : startsPunct ":" (head ++ s :: rest) = false := by
    cases h with
    | bare => exact Token.isPunct_eq_false (by simp [hs]) ":"
    | bindings hk hclause =>
      obtain ⟨t, more, rfl, ht | ⟨-, htext | htext⟩⟩ := exists_cons_of_clause hclause <;>
        simp [Token.isPunct, *]
    | names hk hopening => exact Token.isPunct_eq_false_of_ne hopening (by decide)
    | all hk hstar | allAs hk hstar => exact Token.isPunct_eq_false_of_ne hstar (by decide)
  simp [Statement.startsForm, hkey, hnext]

/-- A statement is read from its specifier on, wherever it stands. -/
theorem readForm_eq {k s : Token} {head : List Token} (h : f.Heads (k :: head))
    (hs : s.kind = .str) (rest : List Token) :
    Statement.readForm k (head ++ s :: rest) = f.readEnd (s :: rest) := by
  have himport (hk : k.isWord "import" = true) (ts : List Token) :
      Statement.readForm k ts = readImport k.stop ts := by
    rw [Statement.readForm, if_pos (Token.isWord_iff.mp hk).2]
  have hexport (hk : k.isWord "export" = true) (ts : List Token) :
      Statement.readForm k ts = readExport k.stop ts := by
    rw [Statement.readForm, if_neg (by simp [(Token.isWord_iff.mp hk).2])]
  -- what has been read up to `from` is followed by the specifier
  have hfrom {word : Token} (hword : word.isWord "from" = true) :
      startsWord "from" (word :: s :: rest) = true := hword
  cases h with
  | bare hk =>
    have hpunct : ∀ p, s.isPunct p = false := Token.isPunct_eq_false (by simp [hs])
    rw [himport hk, List.nil_append]
    simp only [readImport, hpunct, Bool.false_eq_true, if_false, hs, if_true]
    rfl
  | @bindings _ word clause c hk hclause hword =>
    obtain ⟨t, more, hcons, ht⟩ := exists_cons_of_clause hclause
    have hclause := readClause_append hclause hword (s :: rest)
    have hother : t.isPunct "." = false ∧ t.isPunct "(" = false ∧ t.kind ≠ .str := by
      rcases ht with ht | ⟨ht, htext | htext⟩ <;> simp [Token.isPunct, *]
    rw [himport hk, List.append_assoc, List.singleton_append]
    rw [hcons, List.cons_append] at hclause ⊢
    simp only [readImport, hother, hclause, bind, Except.bind, hfrom hword, Bool.false_eq_true,
      if_false, if_true, List.tail_cons]
    rfl
  | @names _ opening closing word items ps hk hopening hitems hclosing hword =>
    have htokens : opening :: (items ++ [closing, word]) ++ s :: rest =
        opening :: (items ++ closing :: word :: s :: rest) := by simp
    rw [hexport hk, htokens, readExport_names hopening, readExportNames,
      hitems.readNames hclosing (word :: s :: rest)]
    simp only [bind, Except.bind, hfrom hword, if_true, List.tail_cons]
    rfl
  | @all _ star word hk hstar hword =>
    have has : startsWord "as" (word :: s :: rest) = false :=
      Token.isWord_eq_false_of_ne hword (by decide)
    rw [hexport hk, List.cons_append, readExport_all hstar]
    simp only [List.cons_append, List.nil_append, readExportAll, readExportAlias, has,
      Bool.false_eq_true, if_false, bind, Except.bind, hfrom hword, if_true, List.tail_cons]
    rfl
  | @allAs _ star a t word hk hstar ha ht hword =>
    have has : startsWord "as" (a :: t :: word :: s :: rest) = true := ha
    have hname : readName (t :: word :: s :: rest) = .ok ⟨t.text, t.stop, word :: s :: rest⟩ := by
      rw [readName, if_pos ht]
    rw [hexport hk, List.cons_append, readExport_all hstar]
    simp only [List.cons_append, List.nil_append, readExportAll, readExportAlias, has, if_true,
      List.tail_cons, hname, Except.map, bind, Except.bind, hfrom hword]
    rfl

/-- A statement that is read gives its form. -/
theorem value_of_readForm {k s : Token} {head rest : List Token} {r : Found}
    (h : f.Heads (k :: head)) (hs : s.kind = .str)
    (hread : Statement.readForm k (head ++ s :: rest) = .ok r) :
    r.value = some (f.form (specifierText s)) := by
  rw [h.readForm_eq hs] at hread
  exact value_of_readEnd hread

end StaticForm.Heads

end EdgeBundle
