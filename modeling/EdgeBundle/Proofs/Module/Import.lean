import EdgeBundle.Proofs.Module.Outline

/-!
# The grammar of import declarations

The readers for import declarations read the texts of a small grammar, over tokens. Each reader is
shown to read a text of its part of the grammar, with any tokens after it, and nothing else, except
that the comma after the binding of the default export is not asked for.

## Main definitions

* `Names`: names between braces.
* `Clause`: what stands between `import` and `from`.
* `Unseparated`: the same with a comma missing.
* `ImportDeclaration`: the tokens after `import` in a declaration.

## Main statements

* `Names.readNames` and `names_of_readNames`, `readClause_append` and `clause_of_readClause`: what
  the readers of these parts read.
* `exists_readImport_eq_ok`: the reader accepts the declarations, and beyond them those in which the
  comma after the default binding is missing.
-/

namespace EdgeBundle

namespace Statement

/-! ## The grammar -/

/-- One name between braces, with the name that it goes by. -/
inductive NameItem : List Token → NamePair → Prop
  | plain {t : Token} (ht : t.kind = .ident) : NameItem [t] ⟨t.text, t.text⟩
  | renamed {t a u : Token} (ht : t.kind = .ident) (ha : a.isWord "as" = true)
      (hu : u.kind = .ident) : NameItem [t, a, u] ⟨t.text, u.text⟩

/-- Names between braces, with commas between any two and perhaps one after the last. -/
inductive Names : List Token → List NamePair → Prop
  | nil : Names [] []
  | last {item : List Token} {p : NamePair} (hitem : NameItem item p) : Names item [p]
  | cons {item rest : List Token} {comma : Token} {p : NamePair} {ps : List NamePair}
      (hitem : NameItem item p) (hcomma : comma.isPunct "," = true) (hrest : Names rest ps) :
      Names (item ++ comma :: rest) (p :: ps)

/-- A namespace or names in braces, as the names that they bind. -/
inductive Bindings : List Token → Option String → Option (List NamePair) → Prop
  | all {star a t : Token} (hstar : star.isPunct "*" = true) (ha : a.isWord "as" = true)
      (ht : t.kind = .ident) : Bindings [star, a, t] (some t.text) none
  | names {opening closing : Token} {names : List Token} {ps : List NamePair}
      (hopening : opening.isPunct "\x7b" = true) (hnames : Names names ps)
      (hclosing : closing.isPunct "\x7d" = true) :
      Bindings (opening :: (names ++ [closing])) none (some ps)

/-- What stands between `import` and `from`, with what it binds. -/
inductive Clause : List Token → ImportClause → Prop
  | default {t : Token} (ht : t.kind = .ident) (hfrom : t.text ≠ "from") :
      Clause [t] ⟨some t.text, none, none⟩
  | bindings {ts : List Token} {name : Option String} {names : Option (List NamePair)}
      (hts : Bindings ts name names) : Clause ts ⟨none, name, names⟩
  | both {t comma : Token} {ts : List Token} {name : Option String}
      {names : Option (List NamePair)} (ht : t.kind = .ident) (hfrom : t.text ≠ "from")
      (hcomma : comma.isPunct "," = true) (hts : Bindings ts name names) :
      Clause (t :: comma :: ts) ⟨some t.text, name, names⟩

/-- A default binding and other bindings without the comma between them. -/
inductive Unseparated : List Token → ImportClause → Prop
  | mk {t : Token} {ts : List Token} {name : Option String} {names : Option (List NamePair)}
      (ht : t.kind = .ident) (hfrom : t.text ≠ "from") (hts : Bindings ts name names) :
      Unseparated (t :: ts) ⟨some t.text, name, names⟩

/-- Import attributes at the start of the tokens, if there are any, are closed. -/
def ClosesAttributes (ts : List Token) : Prop :=
  (startsWord "with" ts = true ∨ startsWord "assert" ts = true) →
    startsPunct "\x7b" ts.tail = true → ∃ t ∈ ts.tail.tail, t.isPunct "\x7d" = true

/-- Tokens that start, after `import`, with bindings of some form and the module they are from. -/
inductive BindsFrom (IsClause : List Token → ImportClause → Prop) : List Token → Prop
  | mk {clause rest : List Token} {c : ImportClause} {word specifier : Token}
      (hclause : IsClause clause c) (hword : word.isWord "from" = true)
      (hspecifier : specifier.kind = .str) (hrest : ClosesAttributes rest) :
      BindsFrom IsClause (clause ++ word :: specifier :: rest)

/-- Tokens that start, after `import`, with the rest of a declaration. -/
inductive ImportDeclaration : List Token → Prop
  | bare {specifier : Token} {rest : List Token} (hspecifier : specifier.kind = .str) :
      ImportDeclaration (specifier :: rest)
  | from {ts : List Token} (hts : BindsFrom Clause ts) : ImportDeclaration ts

/-! ## Names -/

theorem readName_eq_ok_iff {ts : List Token} {r : Read String} :
    readName ts = .ok r ↔ ∃ t, t.kind = .ident ∧ ts = t :: r.rest ∧ r.value = t.text ∧
      r.stop = t.stop := by
  obtain ⟨value, stop, rest⟩ := r
  cases ts with
  | nil => simp [readName]
  | cons t ts =>
    rw [readName]
    split
    next h =>
      simp only [Except.ok.injEq, Read.mk.injEq, List.cons.injEq]
      constructor
      · rintro ⟨rfl, rfl, rfl⟩
        exact ⟨t, h, ⟨rfl, rfl⟩, rfl, rfl⟩
      · rintro ⟨_, -, ⟨rfl, rfl⟩, rfl, rfl⟩
        exact ⟨rfl, rfl, rfl⟩
    next h =>
      refine iff_of_false (by simp) ?_
      rintro ⟨_, ht, ⟨⟩, -⟩
      exact h ht

theorem readAlias_eq_ok_iff {name : String} {ts rest : List Token} {p : NamePair} :
    readAlias name ts = .ok (p, rest) ↔
      (startsWord "as" ts = false ∧ p = ⟨name, name⟩ ∧ ts = rest) ∨
        ∃ a u, a.isWord "as" = true ∧ u.kind = .ident ∧ ts = a :: u :: rest ∧
          p = ⟨name, u.text⟩ := by
  by_cases hstarts : startsWord "as" ts = true
  · rw [readAlias, if_pos hstarts, hstarts]
    cases ts with
    | nil => cases hstarts
    | cons a ts =>
      rw [List.tail_cons]
      cases hname : readName ts with
      | error e =>
        refine iff_of_false (by simp [Except.map]) ?_
        rintro (⟨⟨⟩, -⟩ | ⟨_, u, -, hu, ⟨⟩, -⟩)
        rw [readName, if_pos hu] at hname
        cases hname
      | ok r =>
        obtain ⟨u, hu, rfl, hvalue, -⟩ := readName_eq_ok_iff.mp hname
        simp only [Except.map, Except.ok.injEq, Prod.mk.injEq, hvalue]
        constructor
        · rintro ⟨rfl, rfl⟩
          exact .inr ⟨a, u, hstarts, hu, rfl, rfl⟩
        · rintro (⟨⟨⟩, -⟩ | ⟨_, _, -, -, ⟨⟩, rfl⟩)
          exact ⟨rfl, rfl⟩
  · rw [readAlias, if_neg hstarts, Except.ok.injEq, Prod.mk.injEq]
    constructor
    · rintro ⟨rfl, rfl⟩
      exact .inl ⟨Bool.eq_false_iff.mpr hstarts, rfl, rfl⟩
    · rintro (⟨-, rfl, rfl⟩ | ⟨a, _, ha, -, rfl, -⟩)
      · exact ⟨rfl, rfl⟩
      · exact absurd ha hstarts

/-- A name with its alias is read up to the punctuator after it. -/
theorem NameItem.readAlias {item : List Token} {p : NamePair} (h : NameItem item p) {s : Token}
    (hs : s.kind = .punct) (rest : List Token) :
    ∃ t more, item = t :: more ∧ t.kind = .ident ∧
      Statement.readAlias t.text (more ++ s :: rest) = .ok (p, s :: rest) := by
  cases h with
  | @plain t ht =>
    have has : s.isWord "as" = false := Token.isWord_eq_false (by simp [hs]) _
    exact ⟨t, [], rfl, ht, readAlias_eq_ok_iff.mpr (.inl ⟨has, rfl, rfl⟩)⟩
  | @renamed t a u ht ha hu =>
    exact ⟨t, [a, u], rfl, ht, readAlias_eq_ok_iff.mpr (.inr ⟨a, u, ha, hu, rfl, rfl⟩)⟩

/-- A name that has been read with its alias. -/
theorem nameItem_of_readAlias {t : Token} (ht : t.kind = .ident) {ts rest : List Token}
    {p : NamePair} (h : readAlias t.text ts = .ok (p, rest)) :
    ∃ item, NameItem item p ∧ t :: ts = item ++ rest := by
  rcases readAlias_eq_ok_iff.mp h with ⟨-, rfl, rfl⟩ | ⟨a, u, ha, hu, rfl, rfl⟩
  · exact ⟨[t], .plain ht, rfl⟩
  · exact ⟨[t, a, u], .renamed ht ha hu, rfl⟩

/-- Names and the brace after them are read. -/
theorem Names.readNames {names : List Token} {ps : List NamePair} (h : Names names ps)
    {closing : Token} (hclosing : closing.isPunct "\x7d" = true) (rest : List Token) :
    Statement.readNames (names ++ closing :: rest) = .ok ⟨ps, closing.stop, rest⟩ := by
  have hkind := (Token.isPunct_iff.mp hclosing).1
  have hident {t : Token} (ht : t.kind = .ident) : t.isPunct "\x7d" = false :=
    Token.isPunct_eq_false (by simp [ht]) _
  induction h with
  | nil => rw [List.nil_append, Statement.readNames, if_pos hclosing]
  -- the brace closes the list right after an item
  | @last item p hitem =>
    obtain ⟨t, more, rfl, ht, halias⟩ := hitem.readAlias hkind rest
    have hcomma : closing.isPunct "," = false :=
      Token.isPunct_eq_false_of_ne hclosing (by decide)
    rw [List.cons_append, Statement.readNames, if_neg (by simp [hident ht]), if_neg (by simp [ht])]
    split
    next h => rw [halias] at h; cases h
    next h => rw [halias] at h; cases h
    next h =>
      rw [halias] at h
      cases h
      rw [if_neg (by simp [hcomma]), if_pos hclosing]
  | @cons item names comma p ps hitem hcomma hrest ih =>
    obtain ⟨t, more, rfl, ht, halias⟩ :=
      hitem.readAlias (Token.isPunct_iff.mp hcomma).1 (names ++ closing :: rest)
    rw [List.append_assoc, List.cons_append, List.cons_append, Statement.readNames,
      if_neg (by simp [hident ht]), if_neg (by simp [ht])]
    split
    next h => rw [halias] at h; cases h
    next h => rw [halias] at h; cases h
    next h =>
      rw [halias] at h
      cases h
      rw [if_pos hcomma, ih]
      rfl

/-- What is read as names are names and the brace after them. -/
theorem names_of_readNames {ts : List Token} {r : Read (List NamePair)}
    (h : Statement.readNames ts = .ok r) :
    ∃ names closing, Names names r.value ∧ closing.isPunct "\x7d" = true ∧
      ts = names ++ closing :: r.rest ∧ r.stop = closing.stop := by
  fun_induction Statement.readNames ts generalizing r with
  | case1 => cases h
  | case2 t ts hclosing =>
    cases h
    exact ⟨[], t, .nil, hclosing, rfl, rfl⟩
  | case3 => cases h
  | case4 => cases h
  | case5 => cases h
  -- a name before a comma
  | case6 t ts _ ht pair s rest halias hcomma ih =>
    cases hnames : Statement.readNames rest with
    | error e => rw [hnames] at h; cases h
    | ok q =>
      rw [hnames] at h
      cases h
      obtain ⟨item, hitem, htokens⟩ := nameItem_of_readAlias (Decidable.not_not.mp ht) halias
      obtain ⟨names, closing, hq, hclosing, rfl, hstop⟩ := ih hnames
      refine ⟨item ++ s :: names, closing, .cons hitem hcomma hq, hclosing, ?_, hstop⟩
      rw [htokens, List.append_assoc, List.cons_append]
  -- the last name, right before the brace
  | case7 t ts _ ht pair s rest halias _ hclosing =>
    cases h
    obtain ⟨item, hitem, htokens⟩ := nameItem_of_readAlias (Decidable.not_not.mp ht) halias
    exact ⟨item, s, .last hitem, hclosing, htokens, rfl⟩
  | case8 => cases h

/-! ## Clauses -/

/-- The step of `readClause` after the binding of the default export. -/
def readBindings (defaultName : Option String) (ts : List Token) :
    Except SyntaxFault (ImportClause × List Token) := do
  if startsPunct "*" ts then
    let ts := ts.tail
    if startsWord "as" ts then
      let r ← readName ts.tail
      return (⟨defaultName, some r.value, none⟩, r.rest)
    else throw ⟨"expected 'as' after '*' in import", ts.head?⟩
  else if startsPunct "\x7b" ts then
    let r ← readNames ts.tail
    return (⟨defaultName, none, some r.value⟩, r.rest)
  else if defaultName.isSome then return (⟨defaultName, none, none⟩, ts)
  else throw ⟨"unrecognized import form", ts.head?⟩

theorem readClause_eq (ts : List Token) :
    readClause ts = (readDefaultName ts >>= fun found => readBindings found.1 found.2) := rfl

/-- Bindings are read after any default binding. -/
theorem Bindings.readBindings {ts : List Token} {name : Option String}
    {names : Option (List NamePair)} (h : Bindings ts name names) (defaultName : Option String)
    (rest : List Token) :
    Statement.readBindings defaultName (ts ++ rest) = .ok (⟨defaultName, name, names⟩, rest) := by
  cases h with
  | @all star a t hstar ha ht =>
    have hstarts : startsPunct "*" ([star, a, t] ++ rest) = true := hstar
    have has : startsWord "as" ([star, a, t] ++ rest).tail = true := ha
    have hname : readName ([star, a, t] ++ rest).tail.tail = .ok ⟨t.text, t.stop, rest⟩ :=
      readName_eq_ok_iff.mpr ⟨t, ht, rfl, rfl, rfl⟩
    rw [Statement.readBindings, if_pos hstarts]
    simp only [has, if_true, hname]
    rfl
  | @names opening closing names ps hopening hnames hclosing =>
    have hbrace : startsPunct "\x7b" (opening :: (names ++ [closing]) ++ rest) = true := hopening
    have hstar : startsPunct "*" (opening :: (names ++ [closing]) ++ rest) = false :=
      Token.isPunct_eq_false_of_ne hopening (by decide)
    have hread : readNames (opening :: (names ++ [closing]) ++ rest).tail =
        .ok ⟨ps, closing.stop, rest⟩ := by
      rw [List.cons_append, List.tail_cons, List.append_assoc, List.singleton_append]
      exact hnames.readNames hclosing rest
    rw [Statement.readBindings, if_neg (Bool.eq_false_iff.mp hstar), if_pos hbrace, hread]
    rfl

/-- What is read after a default binding. -/
theorem readBindings_eq_ok {defaultName : Option String} {ts rest : List Token} {c : ImportClause}
    (h : readBindings defaultName ts = .ok (c, rest)) :
    (∃ used name names, Bindings used name names ∧ c = ⟨defaultName, name, names⟩ ∧
        ts = used ++ rest) ∨
      (defaultName.isSome = true ∧ c = ⟨defaultName, none, none⟩ ∧ ts = rest ∧
        startsPunct "*" ts = false ∧ startsPunct "\x7b" ts = false) := by
  rw [readBindings] at h
  split at h
  -- everything under one name
  next hstar =>
    simp only at h
    split at h
    next has =>
      cases hname : readName ts.tail.tail with
      | error e => rw [hname] at h; cases h
      | ok r =>
        rw [hname] at h
        cases h
        obtain ⟨t, ht, hrest, hvalue, -⟩ := readName_eq_ok_iff.mp hname
        match ts, hstar, has, hrest with
        | star :: a :: _, hstar, has, hrest =>
          refine .inl ⟨[star, a, t], some t.text, none, .all hstar has ht, ?_, ?_⟩
          · rw [hvalue]
          · rw [List.tail_cons, List.tail_cons] at hrest
            rw [hrest]
            rfl
    next => cases h
  next hstar =>
    split at h
    -- names between braces
    next hbrace =>
      cases hnames : readNames ts.tail with
      | error e => rw [hnames] at h; cases h
      | ok r =>
        rw [hnames] at h
        cases h
        obtain ⟨names, closing, hps, hclosing, htail, -⟩ := names_of_readNames hnames
        match ts, hbrace, htail with
        | opening :: _, hbrace, htail =>
          refine .inl ⟨_, none, _, .names hbrace hps hclosing, rfl, ?_⟩
          rw [List.tail_cons] at htail
          simp [htail]
    next hbrace =>
      split at h
      -- nothing, which only a default binding allows
      next hsome =>
        cases h
        exact .inr ⟨hsome, rfl, rfl, Bool.eq_false_iff.mpr hstar, Bool.eq_false_iff.mpr hbrace⟩
      next => cases h

/-- What is read as the binding of the default export. -/
theorem readDefaultName_eq_ok {ts rest : List Token} {defaultName : Option String}
    (h : readDefaultName ts = .ok (defaultName, rest)) :
    (defaultName = none ∧ ts = rest) ∨
      ∃ t, t.kind = .ident ∧ t.text ≠ "from" ∧ defaultName = some t.text ∧
        (ts = t :: rest ∨ ∃ comma, comma.isPunct "," = true ∧ ts = t :: comma :: rest ∧
          (startsPunct "*" rest = true ∨ startsPunct "\x7b" rest = true)) := by
  cases ts with
  | nil => cases h; exact .inl ⟨rfl, rfl⟩
  | cons t ts =>
    rw [readDefaultName] at h
    split at h
    next hident =>
      split at h
      -- a comma is taken only before other bindings
      next hcomma =>
        simp only at h
        split at h
        next hnext =>
          cases h
          cases ts with
          | nil => cases hcomma
          | cons comma ts =>
            refine .inr ⟨t, hident.1, hident.2, rfl, .inr ⟨comma, hcomma, rfl, ?_⟩⟩
            simpa using hnext
        next => cases h
      next =>
        cases h
        exact .inr ⟨t, hident.1, hident.2, rfl, .inl rfl⟩
    next =>
      cases h
      exact .inl ⟨rfl, rfl⟩

/-- What is read as a clause is one, or lacks the comma. -/
theorem clause_of_readClause {ts rest : List Token} {c : ImportClause}
    (h : readClause ts = .ok (c, rest)) :
    ∃ clause, (Clause clause c ∨ Unseparated clause c) ∧ ts = clause ++ rest := by
  rw [readClause_eq] at h
  cases hdefault : readDefaultName ts with
  | error e => rw [hdefault] at h; cases h
  | ok found =>
    obtain ⟨defaultName, after⟩ := found
    rw [hdefault] at h
    replace h : readBindings defaultName after = .ok (c, rest) := h
    rcases readDefaultName_eq_ok hdefault with ⟨rfl, rfl⟩ | ⟨t, ht, hfrom, rfl, hts⟩
    · rcases readBindings_eq_ok h with ⟨used, name, names, hused, rfl, rfl⟩ | ⟨⟨⟩, -⟩
      exact ⟨used, .inl (.bindings hused), rfl⟩
    · rcases readBindings_eq_ok h with ⟨used, name, names, hused, rfl, rfl⟩ |
        ⟨-, rfl, rfl, hstar, hbrace⟩
      · rcases hts with rfl | ⟨comma, hcomma, rfl, -⟩
        · exact ⟨t :: used, .inr ⟨ht, hfrom, hused⟩, rfl⟩
        · exact ⟨t :: comma :: used, .inl (.both ht hfrom hcomma hused), rfl⟩
      · rcases hts with rfl | ⟨comma, hcomma, rfl, hnext⟩
        · exact ⟨[t], .inl (.default ht hfrom), rfl⟩
        -- after the comma there must be other bindings
        · rw [hstar, hbrace] at hnext
          rcases hnext with h | h <;> cases h

/-- Bindings start with their punctuator. -/
theorem Bindings.exists_cons {ts : List Token} {name : Option String}
    {names : Option (List NamePair)} (h : Bindings ts name names) :
    ∃ t more, ts = t :: more ∧ t.kind = .punct ∧ (t.text = "*" ∨ t.text = "\x7b") := by
  cases h with
  | all hstar =>
    obtain ⟨hkind, htext⟩ := Token.isPunct_iff.mp hstar
    exact ⟨_, _, rfl, hkind, .inl htext⟩
  | names hopening =>
    obtain ⟨hkind, htext⟩ := Token.isPunct_iff.mp hopening
    exact ⟨_, _, rfl, hkind, .inr htext⟩

/-- A default binding without a comma is read up to what follows it. -/
theorem readDefaultName_of_ident {t : Token} (ht : t.kind = .ident) (hfrom : t.text ≠ "from")
    {ts : List Token} (hcomma : startsPunct "," ts = false) :
    readDefaultName (t :: ts) = .ok (some t.text, ts) := by
  rw [readDefaultName, if_pos ⟨ht, hfrom⟩, if_neg (Bool.eq_false_iff.mp hcomma)]

/-- A clause before `from` is read, also if it lacks the comma. -/
theorem readClause_append {clause : List Token} {c : ImportClause}
    (h : Clause clause c ∨ Unseparated clause c) {word : Token} (hword : word.isWord "from" = true)
    (rest : List Token) : readClause (clause ++ word :: rest) = .ok (c, word :: rest) := by
  rw [readClause_eq]
  rcases h with (@⟨t, ht, hfrom⟩ | @⟨_, name, names, hts⟩ |
    @⟨t, comma, ts, name, names, ht, hfrom, hcomma, hts⟩) | @⟨t, ts, name, names, ht, hfrom, hts⟩
  -- the default export alone
  · have hnext : ∀ p, startsPunct p (word :: rest) = false :=
      Token.isPunct_eq_false_of_isWord hword
    have hbindings : readBindings (some t.text) (word :: rest) =
        .ok (⟨some t.text, none, none⟩, word :: rest) := by
      rw [readBindings, if_neg (Bool.eq_false_iff.mp (hnext "*")),
        if_neg (Bool.eq_false_iff.mp (hnext "\x7b"))]
      rfl
    rw [List.singleton_append, readDefaultName_of_ident ht hfrom (hnext ",")]
    exact hbindings
  -- other bindings alone
  · have hnone : readDefaultName (clause ++ word :: rest) = .ok (none, clause ++ word :: rest) := by
      obtain ⟨t, more, rfl, ht, -⟩ := hts.exists_cons
      rw [List.cons_append, readDefaultName, if_neg (by simp [ht])]
    rw [hnone]
    exact hts.readBindings none _
  -- both, with a comma between them
  · have hsome : readDefaultName (t :: comma :: (ts ++ word :: rest)) =
        .ok (some t.text, ts ++ word :: rest) := by
      obtain ⟨u, more, rfl, hu, hstarts⟩ := hts.exists_cons
      have hcomma' : startsPunct "," (comma :: (u :: more ++ word :: rest)) = true := hcomma
      rw [readDefaultName, if_pos ⟨ht, hfrom⟩, if_pos hcomma']
      rcases hstarts with hstar | hbrace
      · simp [Token.isPunct, hu, hstar]
      · simp [Token.isPunct, hu, hbrace]
    rw [List.cons_append, List.cons_append, hsome]
    exact hts.readBindings _ _
  -- both, without the comma
  · have hsome : readDefaultName (t :: (ts ++ word :: rest)) =
        .ok (some t.text, ts ++ word :: rest) := by
      obtain ⟨u, more, rfl, hu, hstarts⟩ := hts.exists_cons
      refine readDefaultName_of_ident ht hfrom ?_
      rcases hstarts with hstar | hbrace
      · simp [Token.isPunct, hstar]
      · simp [Token.isPunct, hbrace]
    rw [List.cons_append, hsome]
    exact hts.readBindings _ _

/-! ## Declarations -/

/-- The text between the quotes of a string token. -/
def specifierText (t : Token) : String :=
  String.ofList t.text.toList.tail.dropLast

theorem readSpecifier_eq_ok_iff {ts : List Token} {r : Read String} :
    readSpecifier ts = .ok r ↔ ∃ t, t.kind = .str ∧ '\\' ∉ t.text.toList.tail.dropLast ∧
      ts = t :: r.rest ∧ r.value = specifierText t ∧ r.stop = t.stop := by
  obtain ⟨value, stop, rest⟩ := r
  cases ts with
  | nil => simp [readSpecifier]
  | cons t ts =>
    rw [readSpecifier]
    by_cases hkind : t.kind = .str
    · by_cases hescape : '\\' ∈ t.text.toList.tail.dropLast
      · rw [if_pos hkind]
        refine iff_of_false (by simp [hescape]) ?_
        rintro ⟨_, -, hnot, ⟨⟩, -⟩
        exact hnot hescape
      · rw [if_pos hkind]
        simp only [if_neg hescape, Except.ok.injEq, Read.mk.injEq, List.cons.injEq]
        constructor
        · rintro ⟨rfl, rfl, rfl⟩
          exact ⟨t, hkind, hescape, ⟨rfl, rfl⟩, rfl, rfl⟩
        · rintro ⟨_, -, -, ⟨rfl, rfl⟩, rfl, rfl⟩
          exact ⟨rfl, rfl, rfl⟩
    · rw [if_neg hkind]
      refine iff_of_false (by simp) ?_
      rintro ⟨_, hstr, -, ⟨⟩, -⟩
      exact hkind hstr

theorem isSome_afterBrace? (ts : List Token) :
    (afterBrace? ts).isSome = ts.any (·.isPunct "\x7d") := by
  induction ts with
  | nil => rfl
  | cons t ts ih =>
    rw [afterBrace?, List.any_cons, ← ih]
    split
    next h => simp [h]
    next h => simp [h]

/-- Attributes are skipped exactly if they are closed. -/
theorem exists_skipAttributes_eq_ok_iff {stop : Nat} {ts : List Token} :
    (∃ r, skipAttributes stop ts = .ok r) ↔ ClosesAttributes ts := by
  rw [skipAttributes, ClosesAttributes]
  split
  next h =>
    rw [Bool.and_eq_true, Bool.or_eq_true] at h
    rw [imp_iff_right h.1, imp_iff_right h.2, ← List.any_eq_true, ← isSome_afterBrace?]
    cases afterBrace? ts.tail.tail with
    | none => simp
    | some found => simp
  next h =>
    rw [Bool.and_eq_true, Bool.or_eq_true, not_and] at h
    exact iff_of_true ⟨_, rfl⟩ fun hword hbrace => absurd hbrace (h hword)

theorem exists_cons_of_clause {clause : List Token} {c : ImportClause}
    (h : Clause clause c ∨ Unseparated clause c) :
    ∃ t more, clause = t :: more ∧
      (t.kind = .ident ∨ t.kind = .punct ∧ (t.text = "*" ∨ t.text = "\x7b")) := by
  rcases h with (⟨ht, -⟩ | hts | ⟨ht, -⟩) | ⟨ht, -⟩
  · exact ⟨_, _, rfl, .inl ht⟩
  · obtain ⟨t, more, rfl, ht⟩ := hts.exists_cons
    exact ⟨t, more, rfl, .inr ht⟩
  · exact ⟨_, _, rfl, .inl ht⟩
  · exact ⟨_, _, rfl, .inl ht⟩

/-- A specifier alone is read up to a semicolon. -/
theorem readImport_bare {stop : Nat} {s : Token} (hs : s.kind = .str)
    (hescape : '\\' ∉ s.text.toList.tail.dropLast) (rest : List Token) :
    readImport stop (s :: rest) = .ok ⟨some (.bareImport (specifierText s)),
      (takeSemicolon s.stop rest).1, (takeSemicolon s.stop rest).2⟩ := by
  have hread : readSpecifier (s :: rest) = .ok ⟨specifierText s, s.stop, rest⟩ :=
    readSpecifier_eq_ok_iff.mpr ⟨s, hs, hescape, rfl, rfl, rfl⟩
  have hpunct : ∀ p, s.isPunct p = false := Token.isPunct_eq_false (by simp [hs])
  simp only [readImport, hpunct, Bool.false_eq_true, if_false, hs, if_true, hread]
  rfl

/-- Bindings and a specifier are read up to a semicolon. -/
theorem readImport_append {stop stop' : Nat} {clause rest rest' : List Token} {c : ImportClause}
    {word s : Token} (hclause : Clause clause c ∨ Unseparated clause c)
    (hword : word.isWord "from" = true) (hs : s.kind = .str)
    (hescape : '\\' ∉ s.text.toList.tail.dropLast)
    (hrest : skipAttributes s.stop rest = .ok (stop', rest')) :
    readImport stop (clause ++ word :: s :: rest) =
      .ok ⟨some (.importFrom c (specifierText s)), (takeSemicolon stop' rest').1,
        (takeSemicolon stop' rest').2⟩ := by
  have hread : readSpecifier (s :: rest) = .ok ⟨specifierText s, s.stop, rest⟩ :=
    readSpecifier_eq_ok_iff.mpr ⟨s, hs, hescape, rfl, rfl, rfl⟩
  have hclauseRead := readClause_append hclause hword (s :: rest)
  have hfrom : startsWord "from" (word :: s :: rest) = true := hword
  obtain ⟨t, more, rfl, ht⟩ := exists_cons_of_clause hclause
  have hhead : t.isPunct "." = false ∧ t.isPunct "(" = false ∧ t.kind ≠ .str := by
    rcases ht with ht | ⟨ht, htext | htext⟩ <;> simp [Token.isPunct, *]
  rw [List.cons_append] at hclauseRead ⊢
  simp only [readImport, hhead, Bool.false_eq_true, if_false, hclauseRead, bind, Except.bind,
    hfrom, if_true, List.tail_cons, hread, hrest]
  rfl

/-- A specifier in parentheses is read with them. -/
theorem readImport_call {stop : Nat} {opening s closing : Token}
    (hopening : opening.isPunct "(" = true) (hs : s.kind = .str)
    (hescape : '\\' ∉ s.text.toList.tail.dropLast) (hclosing : closing.isPunct ")" = true)
    (rest : List Token) :
    readImport stop (opening :: s :: closing :: rest) =
      .ok ⟨some (.importCall (specifierText s)), closing.stop, rest⟩ := by
  have hread : readSpecifier (s :: closing :: rest) =
      .ok ⟨specifierText s, s.stop, closing :: rest⟩ :=
    readSpecifier_eq_ok_iff.mpr ⟨s, hs, hescape, rfl, rfl, rfl⟩
  have hdot : opening.isPunct "." = false := Token.isPunct_eq_false_of_ne hopening (by decide)
  simp only [readImport, hdot, hopening, hs, hclosing, and_self, Bool.false_eq_true, if_false,
    if_true, hread]
  rfl

/-- A declaration is read as its form, also if it lacks the comma. -/
theorem exists_readImport_eq_ok {stop : Nat} {ts : List Token}
    (hescape : ∀ t ∈ ts, t.kind = .str → '\\' ∉ t.text.toList)
    (h : ImportDeclaration ts ∨ BindsFrom Unseparated ts) :
    ∃ form s stop' rest, readImport stop ts = .ok ⟨some form, stop', rest⟩ ∧ s ∈ ts ∧
      s.kind = .str ∧
      (form = .bareImport (specifierText s) ∨ ∃ c, form = .importFrom c (specifierText s)) := by
  have hinner : ∀ s ∈ ts, s.kind = .str → '\\' ∉ s.text.toList.tail.dropLast :=
    fun s hs hkind hmem =>
      hescape s hs hkind (List.mem_of_mem_tail (List.dropLast_subset _ hmem))
  have hfrom : ∀ {clause c rest} {word s : Token}, (Clause clause c ∨ Unseparated clause c) →
      word.isWord "from" = true → s.kind = .str → ClosesAttributes rest →
      ts = clause ++ word :: s :: rest → ∃ form s stop' rest,
        readImport stop ts = .ok ⟨some form, stop', rest⟩ ∧ s ∈ ts ∧ s.kind = .str ∧
        (form = .bareImport (specifierText s) ∨ ∃ c, form = .importFrom c (specifierText s)) := by
    rintro clause c rest word s hclause hword hs hrest rfl
    obtain ⟨⟨stop', rest'⟩, hskip⟩ := exists_skipAttributes_eq_ok_iff.mpr hrest
    have hmem : s ∈ clause ++ word :: s :: rest := by simp
    exact ⟨_, s, _, _, readImport_append hclause hword hs (hinner s hmem hs) hskip, hmem, hs,
      .inr ⟨c, rfl⟩⟩
  rcases h with (@⟨s, rest, hs⟩ | ⟨hclause, hword, hs, hrest⟩) | ⟨hclause, hword, hs, hrest⟩
  · exact ⟨_, s, _, _, readImport_bare hs (hinner s List.mem_cons_self hs) rest, List.mem_cons_self,
      hs, .inl rfl⟩
  · exact hfrom (.inl hclause) hword hs hrest rfl
  · exact hfrom (.inr hclause) hword hs hrest rfl

/-- Tokens in which the comma is missing are no declaration. -/
theorem BindsFrom.not_importDeclaration {ts : List Token} (h : BindsFrom Unseparated ts) :
    ¬ ImportDeclaration ts := by
  obtain ⟨t, u, more, htokens, ht, hu⟩ : ∃ t u more, ts = t :: u :: more ∧ t.kind = .ident ∧
      u.kind = .punct ∧ (u.text = "*" ∨ u.text = "\x7b") := by
    obtain ⟨⟨ht, -, hts⟩, -, -, -⟩ := h
    obtain ⟨u, more, rfl, hu⟩ := hts.exists_cons
    exact ⟨_, u, _, rfl, ht, hu⟩
  -- after a name a declaration goes on with a comma or with `from`
  rintro (hs | ⟨⟨-, -⟩ | hts | ⟨-, -, hcomma, -⟩, hword, -, -⟩)
  · cases htokens
    rw [hs] at ht
    cases ht
  · cases htokens
    rw [(Token.isWord_iff.mp hword).1] at hu
    cases hu.1
  · obtain ⟨v, _, rfl, hv, -⟩ := hts.exists_cons
    obtain ⟨rfl, -⟩ := List.cons.inj htokens
    rw [hv] at ht
    cases ht
  · cases htokens
    rw [(Token.isPunct_iff.mp hcomma).2] at hu
    simp at hu

/-! ## Exports of names -/

/-- Names in braces are exported, up to a semicolon. -/
theorem readExportNames_append {names : List Token} {ps : List NamePair} (hnames : Names names ps)
    {closing : Token} (hclosing : closing.isPunct "\x7d" = true) {rest : List Token}
    (hrest : startsWord "from" rest = false) :
    readExportNames (names ++ closing :: rest) = .ok ⟨some (.exportNames ps),
      (takeSemicolon closing.stop rest).1, (takeSemicolon closing.stop rest).2⟩ := by
  rw [readExportNames, hnames.readNames hclosing rest]
  simp only [bind, Except.bind, hrest, Bool.false_eq_true, if_false]
  rfl

/-- Names in braces are exported from the module of a specifier, up to a semicolon. -/
theorem readExportNames_append_from {names : List Token} {ps : List NamePair}
    (hnames : Names names ps) {closing word s : Token} (hclosing : closing.isPunct "\x7d" = true)
    (hword : word.isWord "from" = true) (hs : s.kind = .str)
    (hescape : '\\' ∉ s.text.toList.tail.dropLast) (rest : List Token) :
    readExportNames (names ++ closing :: word :: s :: rest) =
      .ok ⟨some (.exportNamesFrom ps (specifierText s)), (takeSemicolon s.stop rest).1,
        (takeSemicolon s.stop rest).2⟩ := by
  have hread : readSpecifier (s :: rest) = .ok ⟨specifierText s, s.stop, rest⟩ :=
    readSpecifier_eq_ok_iff.mpr ⟨s, hs, hescape, rfl, rfl, rfl⟩
  have hfrom : startsWord "from" (word :: s :: rest) = true := hword
  rw [readExportNames, hnames.readNames hclosing (word :: s :: rest)]
  simp only [bind, Except.bind, hfrom, if_true, List.tail_cons, hread]
  rfl

end Statement

end EdgeBundle
