import EdgeBundle.Proofs.Module.StaticForm

/-!
# What is read after a keyword

The reader of forms looks at the tokens one by one. Here its results are given by rules instead, one
for each way in which `import` and `export` are used, and every property of all forms goes through
them.

## Main definitions

* `Statement.FormRead`: the rules.
* `Statement.Takes`: what a form takes of the tokens after its keyword.

## Main statements

* `Statement.readForm_eq_ok_iff`: a form is read exactly if a rule gives it.
* `Statement.takes_of_readForm`: what any form takes.
-/

namespace EdgeBundle

namespace Statement

/-- What is read from the tokens after the keyword `k`. -/
inductive FormRead (k : Token) : List Token → Found → Prop
  /-- A statement that names a module is read from its specifier on. -/
  | static {f : StaticForm} {head rest : List Token} {s : Token} {r : Found}
      (hhead : f.Heads (k :: head)) (hs : s.kind = .str) (hend : f.readEnd (s :: rest) = .ok r) :
      FormRead k (head ++ s :: rest) r
  /-- A property of `import` needs no change. -/
  | property {dot : Token} {rest : List Token} (hk : k.isWord "import" = true)
      (hdot : dot.isPunct "." = true) : FormRead k (dot :: rest) ⟨none, k.stop, dot :: rest⟩
  /-- A call with one string is read with its parentheses. -/
  | call {opening s closing : Token} {rest : List Token} (hk : k.isWord "import" = true)
      (hopening : opening.isPunct "(" = true) (hs : s.kind = .str)
      (hescape : '\\' ∉ s.text.toList.tail.dropLast) (hclosing : closing.isPunct ")" = true) :
      FormRead k (opening :: s :: closing :: rest)
        ⟨some (.importCall (specifierText s)), closing.stop, rest⟩
  /-- The arguments of any other call are left to the search. -/
  | computedCall {opening : Token} {rest : List Token} (hk : k.isWord "import" = true)
      (hopening : opening.isPunct "(" = true)
      (hrest : ∀ s closing after, rest = s :: closing :: after →
        ¬ (s.kind = .str ∧ closing.isPunct ")" = true)) :
      FormRead k (opening :: rest) ⟨some .computedImport, opening.stop, rest⟩
  /-- Names of the module itself are read up to a semicolon. -/
  | names {opening closing : Token} {items rest : List Token} {ps : List NamePair}
      (hk : k.isWord "export" = true) (hopening : opening.isPunct "\x7b" = true)
      (hitems : Names items ps) (hclosing : closing.isPunct "\x7d" = true)
      (hrest : startsWord "from" rest = false) :
      FormRead k (opening :: (items ++ closing :: rest)) ⟨some (.exportNames ps),
        (takeSemicolon closing.stop rest).1, (takeSemicolon closing.stop rest).2⟩
  /-- A function with the name `export` is called. -/
  | called {opening : Token} {rest : List Token} (hk : k.isWord "export" = true)
      (hopening : opening.isPunct "(" = true) :
      FormRead k (opening :: rest) ⟨none, k.stop, opening :: rest⟩
  /-- A declaration stays, and the keywords before it go. -/
  | defaultDeclaration {t d : Token} {rest : List Token} {name : String}
      (hk : k.isWord "export" = true) (ht : t.isWord "default" = true)
      (hname : declaredName? (d :: rest) = some name) :
      FormRead k (t :: d :: rest) ⟨some (.exportDefaultDeclaration name), d.start, d :: rest⟩
  /-- What has no name is an expression. -/
  | default {t : Token} {rest : List Token} (hk : k.isWord "export" = true)
      (ht : t.isWord "default" = true) (hname : declaredName? rest = none) :
      FormRead k (t :: rest) ⟨some .exportDefault, t.stop, rest⟩
  /-- The first variable is published. -/
  | variableDeclaration {t : Token} {rest : List Token} {name : String}
      (hk : k.isWord "export" = true)
      (ht : (t.isWord "const" || t.isWord "let" || t.isWord "var") = true)
      (hname : headName? rest = some name) :
      FormRead k (t :: rest) ⟨some (.exportDeclaration name), t.start, t :: rest⟩
  /-- A function or class is published. -/
  | declaration {t : Token} {rest : List Token} {name : String} (hk : k.isWord "export" = true)
      (hname : declaredName? (t :: rest) = some name) :
      FormRead k (t :: rest) ⟨some (.exportDeclaration name), t.start, t :: rest⟩

/-! ## The rules are sound and complete -/

section Rules

variable {k : Token} {ts : List Token} {r : Found}

/-- A word at the start. -/
theorem exists_cons_of_startsWord {w : String} {ts : List Token} (h : startsWord w ts = true) :
    ∃ word more, ts = word :: more ∧ word.isWord w = true := by
  cases ts with
  | nil => cases h
  | cons word more => exact ⟨word, more, rfl, h⟩

/-- Where a statement that names a module stands, it has been read. -/
theorem FormRead.of_heads {f : StaticForm} {head rest : List Token} {s : Token}
    (hhead : f.Heads (k :: head)) (hs : s.kind = .str) (hts : ts = head ++ s :: rest)
    (h : readForm k ts = .ok r) : FormRead k ts r := by
  subst hts
  rw [hhead.readForm_eq hs] at h
  exact .static hhead hs h

/-- What is read of a parenthesis after `import` is given by a rule. -/
theorem formRead_of_call {opening : Token} (hk : k.isWord "import" = true)
    (hopening : opening.isPunct "(" = true) (h : readForm k (opening :: ts) = .ok r) :
    FormRead k (opening :: ts) r := by
  have hdot : opening.isPunct "." = false := Token.isPunct_eq_false_of_ne hopening (by decide)
  rw [readForm, if_pos (Token.isWord_iff.mp hk).2] at h
  simp only [readImport, hdot, hopening, Bool.false_eq_true, if_false, if_true] at h
  split at h
  next s closing after =>
    split at h
    next hcall =>
      cases hspecifier : readSpecifier (s :: closing :: after) with
      | error fault => rw [hspecifier] at h; cases h
      | ok q =>
        rw [hspecifier] at h
        cases h
        obtain ⟨s', hs, hescape, hts, hvalue, -⟩ := readSpecifier_eq_ok_iff.mp hspecifier
        obtain ⟨rfl, -⟩ := List.cons.inj hts
        dsimp only
        rw [hvalue]
        exact .call hk hopening hs hescape hcall.2
    next hcall =>
      cases h
      refine .computedCall hk hopening fun s' closing' after' hrest => ?_
      cases hrest
      exact hcall
  -- fewer than two tokens follow
  next hshort =>
    cases h
    exact .computedCall hk hopening fun s closing after hrest _ => hshort s closing after hrest

/-- What is read after `import` is given by a rule. -/
theorem formRead_of_import (hk : k.isWord "import" = true) (h : readForm k ts = .ok r) :
    FormRead k ts r := by
  have hread := h
  rw [readForm, if_pos (Token.isWord_iff.mp hk).2] at h
  cases ts with
  | nil => cases h
  | cons t more =>
    simp only [readImport] at h
    split at h
    next hdot => cases h; exact .property hk hdot
    split at h
    next hopening => exact formRead_of_call hk hopening hread
    by_cases hs : t.kind = .str
    · exact .of_heads (.bare hk) hs rfl hread
    rw [if_neg hs] at h
    -- all that is left is a clause with `from` behind it
    obtain ⟨⟨c, after⟩, hclause, h⟩ := Except.bind_eq_ok_iff.mp h
    obtain ⟨clause, hc, hts⟩ := clause_of_readClause hclause
    dsimp only at h
    split at h
    next hfrom =>
      obtain ⟨word, after, rfl, hword⟩ := exists_cons_of_startsWord hfrom
      obtain ⟨q, hq, -⟩ := Except.bind_eq_ok_iff.mp h
      obtain ⟨s, hs, -, hafter, -⟩ := readSpecifier_eq_ok_iff.mp hq
      have htokens : t :: more = clause ++ [word] ++ s :: q.rest := by
        rw [hts, List.append_assoc, List.singleton_append, ← hafter, List.tail_cons]
      exact .of_heads (.bindings hk hc hword) hs htokens hread
    next => cases h

/-- An asterisk, the alias if there is one, and `from` head an export of everything. -/
theorem heads_of_readExportAlias {k star word : Token} {ts more : List Token}
    {asName : Option String} (hk : k.isWord "export" = true) (hstar : star.isPunct "*" = true)
    (hword : word.isWord "from" = true) (h : readExportAlias ts = .ok (asName, word :: more)) :
    ∃ head, (StaticForm.all asName).Heads (k :: head) ∧ star :: ts = head ++ more := by
  rw [readExportAlias] at h
  by_cases has : startsWord "as" ts = true
  · rw [if_pos has] at h
    obtain ⟨a, rest, rfl, ha⟩ := exists_cons_of_startsWord has
    cases hname : readName rest with
    | error fault => rw [List.tail_cons, hname] at h; cases h
    | ok name =>
      rw [List.tail_cons, hname] at h
      obtain ⟨hvalue, hmore⟩ := Prod.mk.inj (Except.ok.inj h)
      obtain ⟨t, ht, hrest, htext, -⟩ := readName_eq_ok_iff.mp hname
      refine ⟨[star, a, t, word], ?_, ?_⟩
      · rw [← hvalue, htext]
        exact .allAs hk hstar ha ht hword
      · rw [hrest, hmore]
        rfl
  · rw [if_neg has] at h
    cases h
    exact ⟨[star, word], .all hk hstar hword, rfl⟩

/-- What is read of names in braces after `export` is given by a rule. -/
theorem formRead_of_readExportNames {opening : Token} (hk : k.isWord "export" = true)
    (hopening : opening.isPunct "\x7b" = true) (hread : readForm k (opening :: ts) = .ok r)
    (h : readExportNames ts = .ok r) : FormRead k (opening :: ts) r := by
  obtain ⟨names, hnames, h⟩ := Except.bind_eq_ok_iff.mp h
  obtain ⟨items, closing, hitems, hclosing, hts, hstop⟩ := names_of_readNames hnames
  by_cases hfrom : startsWord "from" names.rest = true
  · rw [if_pos hfrom] at h
    obtain ⟨word, after, hrest, hword⟩ := exists_cons_of_startsWord hfrom
    obtain ⟨q, hq, -⟩ := Except.bind_eq_ok_iff.mp h
    obtain ⟨s, hs, -, hafter, -⟩ := readSpecifier_eq_ok_iff.mp hq
    rw [hrest, List.tail_cons] at hafter
    have htokens : opening :: ts = opening :: (items ++ [closing, word]) ++ s :: q.rest := by
      simp [hts, hrest, hafter]
    exact .of_heads (.names hk hopening hitems hclosing hword) hs htokens hread
  · rw [if_neg hfrom] at h
    cases h
    rw [hts, hstop]
    exact .names hk hopening hitems hclosing (Bool.eq_false_iff.mpr hfrom)

/-- What is read of an asterisk after `export` is given by a rule. -/
theorem formRead_of_readExportAll {star : Token} (hk : k.isWord "export" = true)
    (hstar : star.isPunct "*" = true) (hread : readForm k (star :: ts) = .ok r)
    (h : readExportAll ts = .ok r) : FormRead k (star :: ts) r := by
  obtain ⟨⟨asName, after⟩, halias, h⟩ := Except.bind_eq_ok_iff.mp h
  dsimp only at h
  split at h
  next hfrom =>
    obtain ⟨word, more, rfl, hword⟩ := exists_cons_of_startsWord hfrom
    obtain ⟨q, hq, -⟩ := Except.bind_eq_ok_iff.mp h
    obtain ⟨s, hs, -, hmore, -⟩ := readSpecifier_eq_ok_iff.mp hq
    obtain ⟨head, hhead, hts⟩ := heads_of_readExportAlias hk hstar hword halias
    rw [List.tail_cons] at hmore
    rw [hmore] at hts
    exact .of_heads hhead hs hts hread
  next => cases h

/-- What is read after `export` is given by a rule. -/
theorem formRead_of_export (hk : k.isWord "export" = true) (h : readForm k ts = .ok r) :
    FormRead k ts r := by
  have hread := h
  rw [readForm, if_neg (by simp [(Token.isWord_iff.mp hk).2])] at h
  cases ts with
  | nil => cases h
  | cons t more =>
    by_cases hopening : t.isPunct "\x7b" = true
    · rw [readExport_names hopening] at h
      exact formRead_of_readExportNames hk hopening hread h
    by_cases hstar : t.isPunct "*" = true
    · rw [readExport_all hstar] at h
      exact formRead_of_readExportAll hk hstar hread h
    simp only [readExport, hopening, hstar, Bool.false_eq_true, if_false] at h
    split at h
    next hparen => cases h; exact .called hk hparen
    split at h
    -- a default, of a declaration with a name or of anything else
    next ht =>
      cases hname : declaredName? more with
      | none => rw [hname] at h; cases h; exact .default hk ht hname
      | some name =>
        rw [hname] at h
        cases more with
        | nil => cases hname
        | cons d rest => cases h; exact .defaultDeclaration hk ht hname
    split at h
    next ht =>
      split at h
      next name hname => cases h; exact .variableDeclaration hk ht hname
      next => cases h
    next =>
      split at h
      next name hname => cases h; exact .declaration hk hname
      next => cases h

/-- A name is declared after one of three words. -/
theorem text_of_declaredName? {t : Token} {name : String}
    (h : declaredName? (t :: ts) = some name) :
    t.kind = .ident ∧ t.text ∈ ["async", "function", "class"] := by
  by_contra hnot
  have hword {w : String} (hw : w ∈ ["async", "function", "class"]) :
      startsWord w (t :: ts) = false := by
    refine Bool.eq_false_iff.mpr fun ht => hnot ?_
    obtain ⟨hkind, rfl⟩ := Token.isWord_iff.mp ht
    exact ⟨hkind, hw⟩
  rw [declaredName?, hword (by simp), Bool.false_and, if_neg Bool.false_ne_true,
    if_neg (by simp [hword]), if_neg (by simp [hword])] at h
  cases h

/-- What a rule gives is read. -/
theorem FormRead.readForm_eq (h : FormRead k ts r) : readForm k ts = .ok r := by
  have himport (hk : k.isWord "import" = true) : readForm k ts = readImport k.stop ts := by
    rw [readForm, if_pos (Token.isWord_iff.mp hk).2]
  have hexport (hk : k.isWord "export" = true) : readForm k ts = readExport k.stop ts := by
    rw [readForm, if_neg (by simp [(Token.isWord_iff.mp hk).2])]
  cases h with
  | static hhead hs hend => rw [hhead.readForm_eq hs, hend]
  | property hk hdot =>
    rw [himport hk]
    simp only [readImport, hdot, if_true]
  | call hk hopening hs hescape hclosing =>
    rw [himport hk, readImport_call hopening hs hescape hclosing]
  | @computedCall opening rest hk hopening hrest =>
    have hdot : opening.isPunct "." = false := Token.isPunct_eq_false_of_ne hopening (by decide)
    rw [himport hk]
    simp only [readImport, hdot, hopening, Bool.false_eq_true, if_false, if_true]
    split
    next s closing after => rw [if_neg (hrest s closing after rfl)]
    next => rfl
  | names hk hopening hitems hclosing hrest =>
    rw [hexport hk, readExport_names hopening, readExportNames_append hitems hclosing hrest]
  | called hk hopening =>
    rw [hexport hk]
    simp only [readExport, hopening, if_true]
  | @defaultDeclaration t d rest name hk ht hname =>
    have hother : ∀ p, t.isPunct p = false := Token.isPunct_eq_false_of_isWord ht
    rw [hexport hk]
    simp only [readExport, hother, ht, hname, Bool.false_eq_true, if_false, if_true]
  | @default t rest hk ht hname =>
    have hother : ∀ p, t.isPunct p = false := Token.isPunct_eq_false_of_isWord ht
    rw [hexport hk]
    simp only [readExport, hother, ht, hname, Bool.false_eq_true, if_false, if_true]
  | @variableDeclaration t rest name hk ht hname =>
    have hident : t.kind = .ident ∧ t.text ≠ "default" := by
      simp only [Bool.or_eq_true, Token.isWord_iff] at ht
      rcases ht with (⟨hkind, htext⟩ | ⟨hkind, htext⟩) | ⟨hkind, htext⟩ <;> simp [hkind, htext]
    have hother : ∀ p, t.isPunct p = false := Token.isPunct_eq_false (by simp [hident.1])
    have hdefault : t.isWord "default" = false := by simp [Token.isWord, hident.2]
    rw [hexport hk]
    simp only [readExport, hother, hdefault, ht, hname, Bool.false_eq_true, if_false, if_true]
  | @declaration t rest name hk hname =>
    obtain ⟨hkind, htext⟩ := text_of_declaredName? hname
    have hother : ∀ p, t.isPunct p = false := Token.isPunct_eq_false (by simp [hkind])
    have hword {w : String} (hw : w ∉ ["async", "function", "class"]) : t.isWord w = false := by
      refine Bool.eq_false_iff.mpr fun ht => hw ?_
      rwa [← (Token.isWord_iff.mp ht).2]
    have hwords : t.isWord "default" = false ∧ t.isWord "const" = false ∧
        t.isWord "let" = false ∧ t.isWord "var" = false := by
      simp [hword]
    rw [hexport hk]
    simp only [readExport, hother, hwords, hname, Bool.or_self, Bool.false_eq_true, if_false]

/-- A form is read exactly if a rule gives it. -/
theorem readForm_eq_ok_iff (hkey : isKeyword k = true) :
    readForm k ts = .ok r ↔ FormRead k ts r := by
  rw [isKeyword, Bool.or_eq_true] at hkey
  exact ⟨fun h => hkey.elim (formRead_of_import · h) (formRead_of_export · h),
    FormRead.readForm_eq⟩

/-- What is read after `import`, if neither a dot nor a parenthesis follows, is a declaration, or
lacks the comma in one. -/
theorem declaration_of_readForm (hk : k.isWord "import" = true) (hdot : startsPunct "." ts = false)
    (hparen : startsPunct "(" ts = false) (h : readForm k ts = .ok r) :
    ImportDeclaration ts ∨ BindsFrom Unseparated ts := by
  have hexport {p : Prop} (hk' : k.isWord "export" = true) : p := by
    rw [Token.isWord_eq_false_of_ne hk (by decide)] at hk'
    cases hk'
  cases formRead_of_import hk h with
  | @static f head rest s _ hhead hs hend =>
    cases hhead with
    | bare => exact .inl (.bare hs)
    | @bindings _ word clause c _ hclause hword =>
      obtain ⟨q, hq, hread⟩ := Except.bind_eq_ok_iff.mp hend
      obtain ⟨skipped, hskip, -⟩ := Except.bind_eq_ok_iff.mp hread
      obtain ⟨_, -, -, ht, -⟩ := readSpecifier_eq_ok_iff.mp hq
      obtain ⟨-, rfl⟩ := List.cons.inj ht
      have hrest := exists_skipAttributes_eq_ok_iff.mp ⟨skipped, hskip⟩
      rw [List.append_assoc, List.singleton_append]
      -- the comma of the clause is all that may be missing
      rcases hclause with hclause | hclause
      · exact .inl (.from ⟨hclause, hword, hs, hrest⟩)
      · exact .inr ⟨hclause, hword, hs, hrest⟩
    | names hk' | all hk' | allAs hk' => exact hexport hk'
  | property _ hdot' => cases hdot.symm.trans hdot'
  | call _ hparen' | computedCall _ hparen' => cases hparen.symm.trans hparen'
  | names hk' | called hk' | defaultDeclaration hk' | default hk' | variableDeclaration hk'
  | declaration hk' => exact hexport hk'

end Rules

/-! ## What a form takes -/

/-- Import attributes, or none. -/
inductive Attributes : List Token → Prop
  | none : Attributes []
  | clause {word opening closing : Token} {inner : List Token}
      (hword : word.isWord "with" = true ∨ word.isWord "assert" = true)
      (hopening : opening.isPunct "\x7b" = true)
      (hinner : ∀ t ∈ inner, t.isPunct "\x7d" = false) (hclosing : closing.isPunct "\x7d" = true) :
      Attributes (word :: opening :: (inner ++ [closing]))

/-- What a form takes of the tokens after its keyword. Only statements that name a module and lists
of exports may take another keyword with them. -/
inductive Takes (k : Token) : List Token → Option Form → Prop
  | static {f : StaticForm} {head attributes ending : List Token} {s : Token}
      (hhead : f.Heads (k :: head)) (hs : s.kind = .str) (hattributes : Attributes attributes)
      (htakes : attributes ≠ [] → f.takesAttributes = true)
      (hending : ∀ t ∈ ending, t.isPunct ";" = true) :
      Takes k (head ++ s :: (attributes ++ ending)) (some (f.form (specifierText s)))
  | names {opening closing : Token} {items ending : List Token} {ps : List NamePair}
      (hopening : opening.isPunct "\x7b" = true) (hitems : Names items ps)
      (hclosing : closing.isPunct "\x7d" = true)
      (hending : ∀ t ∈ ending, t.isPunct ";" = true) :
      Takes k (opening :: (items ++ closing :: ending)) (some (.exportNames ps))
  | other {taken : List Token} {form : Option Form} (htaken : ∀ t ∈ taken, isKeyword t = false) :
      Takes k taken form

/-- A semicolon is taken, or nothing. -/
theorem exists_takeSemicolon (stop : Nat) (ts : List Token) :
    ∃ ending, ts = ending ++ (takeSemicolon stop ts).2 ∧ ∀ t ∈ ending, t.isPunct ";" = true := by
  cases ts with
  | nil => exact ⟨[], rfl, by simp⟩
  | cons t ts =>
    rw [takeSemicolon]
    split
    next ht => exact ⟨[t], rfl, by simpa using ht⟩
    next => exact ⟨[], rfl, by simp⟩

/-- The tokens up to the next closing brace. -/
theorem afterBrace?_eq_some {ts rest : List Token} {stop : Nat}
    (h : afterBrace? ts = some (stop, rest)) :
    ∃ inner closing, ts = inner ++ closing :: rest ∧ closing.isPunct "\x7d" = true ∧
      stop = closing.stop ∧ ∀ t ∈ inner, t.isPunct "\x7d" = false := by
  induction ts with
  | nil => cases h
  | cons t ts ih =>
    rw [afterBrace?] at h
    split at h
    next ht =>
      cases h
      exact ⟨[], t, rfl, ht, rfl, by simp⟩
    next ht =>
      obtain ⟨inner, closing, rfl, hclosing, hstop, hinner⟩ := ih h
      exact ⟨t :: inner, closing, rfl, hclosing, hstop, by simpa [ht] using hinner⟩

/-- Skipped tokens are attributes. -/
theorem exists_attributes_of_skipAttributes {stop stop' : Nat} {ts rest : List Token}
    (h : skipAttributes stop ts = .ok (stop', rest)) :
    ∃ attributes, Attributes attributes ∧ ts = attributes ++ rest := by
  rw [skipAttributes] at h
  split at h
  next hstarts =>
    rw [Bool.and_eq_true, Bool.or_eq_true] at hstarts
    -- a word and an opening brace stand at the start
    rcases ts with - | ⟨word, - | ⟨opening, ts⟩⟩
    · simp [startsPunct] at hstarts
    · simp [startsPunct] at hstarts
    split at h
    next found hfound =>
      cases h
      obtain ⟨inner, closing, hts, hclosing, -, hinner⟩ := afterBrace?_eq_some hfound
      rw [List.tail_cons, List.tail_cons] at hts
      exact ⟨word :: opening :: (inner ++ [closing]),
        .clause hstarts.1 hstarts.2 hinner hclosing, by simp [hts]⟩
    next => cases h
  next =>
    cases h
    exact ⟨[], .none, rfl⟩

/-- From its specifier on a statement takes attributes, if they belong to it, and a semicolon. -/
theorem exists_of_readEnd {f : StaticForm} {s : Token} {rest : List Token} {r : Found}
    (h : f.readEnd (s :: rest) = .ok r) :
    ∃ attributes ending, rest = attributes ++ (ending ++ r.rest) ∧ Attributes attributes ∧
      (attributes ≠ [] → f.takesAttributes = true) ∧ ∀ t ∈ ending, t.isPunct ";" = true := by
  obtain ⟨q, hq, hread⟩ := Except.bind_eq_ok_iff.mp h
  obtain ⟨⟨stop, left⟩, hskip, hr⟩ := Except.bind_eq_ok_iff.mp hread
  obtain ⟨t, -, -, ht, -⟩ := readSpecifier_eq_ok_iff.mp hq
  obtain ⟨rfl, rfl⟩ := List.cons.inj ht
  obtain ⟨ending, hleft, hending⟩ := exists_takeSemicolon stop left
  obtain rfl := Except.ok.inj hr
  rw [StaticForm.skip] at hskip
  split at hskip
  next htakes =>
    obtain ⟨attributes, hattributes, hrest⟩ := exists_attributes_of_skipAttributes hskip
    exact ⟨attributes, ending, hrest.trans (congrArg _ hleft), hattributes, fun _ => htakes,
      hending⟩
  next =>
    cases hskip
    exact ⟨[], ending, hleft, .none, absurd rfl, hending⟩

/-- What a form takes of the tokens after its keyword. A declaration stays in the tokens that
follow. -/
theorem takes_of_readForm {k : Token} {ts : List Token} {r : Found} (hkey : isKeyword k = true)
    (h : readForm k ts = .ok r) : ∃ taken, ts = taken ++ r.rest ∧ Takes k taken r.value := by
  have hpunct {t : Token} {p : String} (ht : t.isPunct p = true) : isKeyword t = false := by
    simp [isKeyword, Token.isWord_eq_false_of_isPunct ht]
  have hdefault {t : Token} (ht : t.isWord "default" = true) : isKeyword t = false := by
    simp [isKeyword, Token.isWord_eq_false_of_ne ht]
  cases (readForm_eq_ok_iff hkey).mp h with
  | @static f head rest s _ hhead hs hend =>
    obtain ⟨attributes, ending, hrest, hattributes, htakes, hending⟩ := exists_of_readEnd hend
    rw [StaticForm.value_of_readEnd hend]
    exact ⟨head ++ s :: (attributes ++ ending), by simp [hrest],
      .static hhead hs hattributes htakes hending⟩
  | @names opening closing items rest ps _ hopening hitems hclosing =>
    obtain ⟨ending, hrest, hending⟩ := exists_takeSemicolon closing.stop rest
    refine ⟨opening :: (items ++ closing :: ending), ?_, .names hopening hitems hclosing hending⟩
    rw [List.cons_append, List.append_assoc, List.cons_append, ← hrest]
  | @call opening s closing _ _ hopening hs _ hclosing =>
    have hs : isKeyword s = false := by simp [isKeyword, Token.isWord, hs]
    exact ⟨[opening, s, closing], rfl, .other (by simp [hpunct hopening, hs, hpunct hclosing])⟩
  | computedCall _ hopening => exact ⟨[_], rfl, .other (by simpa using hpunct hopening)⟩
  | defaultDeclaration _ ht => exact ⟨[_], rfl, .other (by simpa using hdefault ht)⟩
  | default _ ht => exact ⟨[_], rfl, .other (by simpa using hdefault ht)⟩
  | property | called | variableDeclaration | declaration => exact ⟨[], rfl, .other (by simp)⟩

end Statement

end EdgeBundle
