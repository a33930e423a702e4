import EdgeBundle.Token

/-!
# Import and export statements

The forms of `import` and `export` that can be linked, found in the tokens of a module. Everything
else of the module is left as it is, so no other statement is read. A form that is not supported
ends the search, since the rest could not be trusted.

Each reader takes the tokens from some place on and returns those after what it has read.
-/

namespace EdgeBundle

/-- A name and the name it goes by, which is the same unless `as` gives another. -/
structure NamePair where
  /-- The name before `as`. -/
  name : String
  /-- The name after `as`. -/
  asName : String
  deriving DecidableEq, Repr

/-- The names that an import declaration binds. -/
structure ImportClause where
  /-- Binding of the default export. -/
  defaultName : Option String
  /-- Binding of the whole namespace. -/
  namespaceName : Option String
  /-- Bindings of named exports. -/
  names : Option (List NamePair)
  deriving DecidableEq, Repr

/-- A form of import or export. -/
inductive Form where
  /-- `import 'x'` -/
  | bareImport (specifier : String)
  /-- `import … from 'x'` -/
  | importFrom (clause : ImportClause) (specifier : String)
  /-- `import('x')` -/
  | importCall (specifier : String)
  /-- `import(…)` with anything but a single string. -/
  | computedImport
  /-- `export { … }` -/
  | exportNames (names : List NamePair)
  /-- `export { … } from 'x'` -/
  | exportNamesFrom (names : List NamePair) (specifier : String)
  /-- `export * from 'x'`, or `export * as name from 'x'` -/
  | exportAll (asName : Option String) (specifier : String)
  /-- `export default` before a declaration of the name. -/
  | exportDefaultDeclaration (name : String)
  /-- `export default` before an expression. -/
  | exportDefault
  /-- `export` before a declaration of the name. -/
  | exportDeclaration (name : String)
  deriving DecidableEq, Repr

/-- A form with the span of source that it takes the place of. -/
structure Statement where
  /-- Byte offset of the keyword. -/
  start : Nat
  /-- Byte offset one past the span. -/
  stop : Nat
  /-- The form. -/
  form : Form
  deriving DecidableEq, Repr

/-- What was needed, and the token that stands there instead; none at the end of the source. -/
structure SyntaxFault where
  /-- What was needed. -/
  needed : String
  /-- What stands there. -/
  found : Option Token
  deriving DecidableEq, Repr

namespace Statement

/-- Something read from tokens: its value, the byte offset where it ends, and the tokens after
it. -/
structure Read (α : Type) where
  /-- What was read. -/
  value : α
  /-- Byte offset one past the last token read. -/
  stop : Nat
  /-- Tokens that follow. -/
  rest : List Token

/-- Whether the first token is the punctuator `p`. -/
def startsPunct (p : String) (ts : List Token) : Bool :=
  ts.head?.any (·.isPunct p)

/-- Whether the first token is the word `w`. -/
def startsWord (w : String) (ts : List Token) : Bool :=
  ts.head?.any (·.isWord w)

/-- Reads a name. -/
def readName : List Token → Except SyntaxFault (Read String)
  | [] => .error ⟨"expected an identifier", none⟩
  | t :: ts =>
    if t.kind = .ident then .ok ⟨t.text, t.stop, ts⟩
    else .error ⟨"expected an identifier", some t⟩

/-- Reads a specifier: a string without escapes. -/
def readSpecifier : List Token → Except SyntaxFault (Read String)
  | [] => .error ⟨"expected a string specifier", none⟩
  | t :: ts =>
    if t.kind = .str then
      let inner := t.text.toList.tail.dropLast
      if '\\' ∈ inner then .error ⟨"escape sequence in module specifier", some t⟩
      else .ok ⟨String.ofList inner, t.stop, ts⟩
    else .error ⟨"expected a string specifier", some t⟩

/-- Reads the alias of a name that has been read, if `as` follows. -/
def readAlias (name : String) (ts : List Token) : Except SyntaxFault (NamePair × List Token) :=
  if startsWord "as" ts then
    (readName ts.tail).map fun r => (⟨name, r.value⟩, r.rest)
  else .ok (⟨name, name⟩, ts)

/-- Byte `stop` parts the tokens read from `ts` from the tokens `rest` after them: it is the end of
the last token read or the start of the next one. -/
def CutsAt (ts : List Token) (stop : Nat) (rest : List Token) : Prop :=
  ∃ used last, ts = used ++ last :: rest ∧
    (stop = last.stop ∨ ∃ next, rest.head? = some next ∧ stop = next.start)

namespace CutsAt

variable {ts ts' rest : List Token} {stop : Nat}

theorem of_cons (t : Token) (rest : List Token) : CutsAt (t :: rest) t.stop rest :=
  ⟨[], t, rfl, .inl rfl⟩

theorem before_next (t d : Token) (rest : List Token) :
    CutsAt (t :: d :: rest) d.start (d :: rest) :=
  ⟨[], t, rfl, .inr ⟨d, rfl, rfl⟩⟩

theorem isSuffix (h : CutsAt ts stop rest) : rest <:+ ts := by
  obtain ⟨used, last, rfl, -⟩ := h
  exact (List.suffix_cons last rest).trans (List.suffix_append used _)

theorem of_isSuffix (h : CutsAt ts stop rest) (hts : ts <:+ ts') : CutsAt ts' stop rest := by
  obtain ⟨used, last, rfl, hstop⟩ := h
  obtain ⟨before, rfl⟩ := hts
  exact ⟨before ++ used, last, by simp, hstop⟩

/-- Reading one more token moves the cut to its end. -/
theorem next {t : Token} (h : CutsAt ts stop (t :: rest)) : CutsAt ts t.stop rest :=
  (of_cons t rest).of_isSuffix h.isSuffix

end CutsAt

theorem readName_cutsAt {ts : List Token} {r : Read String} (h : readName ts = .ok r) :
    CutsAt ts r.stop r.rest := by
  cases ts with
  | nil => simp [readName] at h
  | cons t ts =>
    simp only [readName] at h
    split at h
    · simp only [Except.ok.injEq] at h; subst h; exact .of_cons t ts
    · simp at h

theorem readSpecifier_cutsAt {ts : List Token} {r : Read String}
    (h : readSpecifier ts = .ok r) : CutsAt ts r.stop r.rest := by
  cases ts with
  | nil => simp [readSpecifier] at h
  | cons t ts =>
    simp only [readSpecifier] at h
    split at h
    · split at h
      · simp at h
      · simp only [Except.ok.injEq] at h; subst h; exact .of_cons t ts
    · simp at h

theorem readAlias_isSuffix {name : String} {ts : List Token} {p : NamePair}
    {rest : List Token} (h : readAlias name ts = .ok (p, rest)) : rest <:+ ts := by
  simp only [readAlias] at h
  split at h
  · cases hr : readName ts.tail with
    | error e => simp [hr, Except.map] at h
    | ok r =>
      simp only [hr, Except.map, Except.ok.injEq, Prod.mk.injEq] at h
      obtain ⟨-, rfl⟩ := h
      exact (readName_cutsAt hr).isSuffix.trans (List.tail_suffix _)
  · simp only [Except.ok.injEq, Prod.mk.injEq] at h
    obtain ⟨-, rfl⟩ := h
    exact List.suffix_refl _

/-- Reads names between braces, from after the opening one; a comma may follow the last name. -/
def readNames (ts : List Token) : Except SyntaxFault (Read (List NamePair)) :=
  match ts with
  | [] => .error ⟨"expected an identifier", none⟩
  | t :: ts =>
    if t.isPunct "\x7d" then .ok ⟨[], t.stop, ts⟩
    else if t.kind ≠ .ident then .error ⟨"expected an identifier", some t⟩
    else
      match _h : readAlias t.text ts with
      | .error e => .error e
      | .ok (_, []) => .error ⟨"expected ',' or '\x7d' in specifier list", none⟩
      | .ok (pair, s :: rest) =>
        if s.isPunct "," then
          (readNames rest).map fun r => ⟨pair :: r.value, r.stop, r.rest⟩
        else if s.isPunct "\x7d" then .ok ⟨[pair], s.stop, rest⟩
        else .error ⟨"expected ',' or '\x7d' in specifier list", some s⟩
  termination_by ts.length
  decreasing_by
    have := (readAlias_isSuffix _h).length_le
    simp only [List.length_cons] at this ⊢
    omega

/-- The tokens after the next closing brace, with the offset where it ends. -/
def afterBrace? : List Token → Option (Nat × List Token)
  | [] => none
  | t :: ts => if t.isPunct "\x7d" then some (t.stop, ts) else afterBrace? ts

/-- Skips import attributes after what has been read up to `stop`. -/
def skipAttributes (stop : Nat) (ts : List Token) : Except SyntaxFault (Nat × List Token) :=
  if (startsWord "with" ts || startsWord "assert" ts) && startsPunct "\x7b" ts.tail then
    match afterBrace? ts.tail.tail with
    | some found => .ok found
    | none => .error ⟨"unterminated import attributes", ts.head?⟩
  else .ok (stop, ts)

/-- Takes a semicolon that follows what has been read up to `stop` with it. -/
def takeSemicolon (stop : Nat) : List Token → Nat × List Token
  | [] => (stop, [])
  | t :: ts => if t.isPunct ";" then (t.stop, ts) else (stop, t :: ts)

/-- Reads the binding of the default export, with the comma after it. -/
def readDefaultName (ts : List Token) : Except SyntaxFault (Option String × List Token) :=
  match ts with
  | [] => .ok (none, [])
  | t :: rest =>
    -- a `from` here already belongs to the specifier
    if t.kind = .ident ∧ t.text ≠ "from" then
      if startsPunct "," rest then
        let rest := rest.tail
        if startsPunct "*" rest || startsPunct "\x7b" rest then .ok (some t.text, rest)
        else .error ⟨"expected '*' or '\x7b' after default import", rest.head?⟩
      else .ok (some t.text, rest)
    else .ok (none, ts)

/-- Reads what an import declaration binds. -/
def readClause (ts : List Token) : Except SyntaxFault (ImportClause × List Token) := do
  let (defaultName, ts) ← readDefaultName ts
  if startsPunct "*" ts then
    let ts := ts.tail
    if startsWord "as" ts then
      let r ← readName ts.tail
      return (⟨defaultName, some r.value, none⟩, r.rest)
    else throw ⟨"expected 'as' after '*' in import", ts.head?⟩
  else if startsPunct "\x7b" ts then
    let r ← readNames ts.tail
    return (⟨defaultName, none, some r.value⟩, r.rest)
  else if defaultName.isSome then return (⟨defaultName, none, none⟩, ts)
  else throw ⟨"unrecognized import form", ts.head?⟩

/-- A form that has been read, or none for a use of the keyword that needs no change; with the
offset where it ends and the tokens that follow. -/
abbrev Found := Read (Option Form)

/-- Reads what follows an `import` keyword that ends at `stop`. -/
def readImport (stop : Nat) (ts : List Token) : Except SyntaxFault Found :=
  match ts with
  | [] => .error ⟨"unrecognized import form", none⟩
  | t :: rest =>
    -- `import.meta` is an expression that needs no change
    if t.isPunct "." then .ok ⟨none, stop, ts⟩
    else if t.isPunct "(" then
      -- only a call with one plain string names its module before the program runs
      match rest with
      | s :: close :: after =>
        if s.kind = .str ∧ close.isPunct ")" then
          (readSpecifier rest).map fun r => ⟨some (.importCall r.value), close.stop, after⟩
        else .ok ⟨some .computedImport, t.stop, rest⟩
      | _ => .ok ⟨some .computedImport, t.stop, rest⟩
    else if t.kind = .str then do
      let r ← readSpecifier ts
      let (stop, rest) := takeSemicolon r.stop r.rest
      return ⟨some (.bareImport r.value), stop, rest⟩
    else do
      let (clause, ts) ← readClause ts
      if startsWord "from" ts then
        let r ← readSpecifier ts.tail
        let (stop, rest) ← skipAttributes r.stop r.rest
        let (stop, rest) := takeSemicolon stop rest
        return ⟨some (.importFrom clause r.value), stop, rest⟩
      else throw ⟨"expected 'from' in import", ts.head?⟩

/-- The first token if it is a name. -/
def headName? (ts : List Token) : Option String :=
  (ts.head?.filter (·.kind == .ident)).map Token.text

/-- The name that a function or class declaration at the start of the tokens declares. -/
def declaredName? (ts : List Token) : Option String :=
  let ts := if startsWord "async" ts && startsWord "function" ts.tail then ts.tail else ts
  if startsWord "function" ts then
    let ts := ts.tail
    headName? (if startsPunct "*" ts then ts.tail else ts)
  else if startsWord "class" ts then
    let ts := ts.tail
    -- a class without a name, although a word follows
    if startsWord "extends" ts then none else headName? ts
  else none

/-- Reads the name under which everything is exported, if there is one. -/
def readExportAlias (ts : List Token) : Except SyntaxFault (Option String × List Token) :=
  if startsWord "as" ts then (readName ts.tail).map fun r => (some r.value, r.rest)
  else .ok (none, ts)

/-- Reads an export of everything, from after the asterisk. -/
def readExportAll (ts : List Token) : Except SyntaxFault Found := do
  let (asName, ts) ← readExportAlias ts
  if startsWord "from" ts then
    let r ← readSpecifier ts.tail
    let (stop, rest) := takeSemicolon r.stop r.rest
    return ⟨some (.exportAll asName r.value), stop, rest⟩
  else throw ⟨"expected 'from' in export *", ts.head?⟩

/-- Reads an export of names, from after the opening brace. -/
def readExportNames (ts : List Token) : Except SyntaxFault Found := do
  let names ← readNames ts
  if startsWord "from" names.rest then
    let r ← readSpecifier names.rest.tail
    let (stop, rest) := takeSemicolon r.stop r.rest
    return ⟨some (.exportNamesFrom names.value r.value), stop, rest⟩
  else
    let (stop, rest) := takeSemicolon names.stop names.rest
    return ⟨some (.exportNames names.value), stop, rest⟩

/-- Reads what follows an `export` keyword that ends at `stop`. The declaration after it stays in
the tokens that follow. -/
def readExport (stop : Nat) (ts : List Token) : Except SyntaxFault Found :=
  match ts with
  | [] => .error ⟨"unrecognized export form", none⟩
  | t :: rest =>
    if t.isPunct "(" then .ok ⟨none, stop, ts⟩
    else if t.isPunct "\x7b" then readExportNames rest
    else if t.isPunct "*" then readExportAll rest
    else if t.isWord "default" then
      -- a declaration with a name keeps its text, and only the keywords before it go
      match declaredName? rest, rest with
      | some name, d :: _ => .ok ⟨some (.exportDefaultDeclaration name), d.start, rest⟩
      | _, _ => .ok ⟨some .exportDefault, t.stop, rest⟩
    else if t.isWord "const" || t.isWord "let" || t.isWord "var" then
      -- the first declared name is the one that is published
      match headName? rest with
      | some name => .ok ⟨some (.exportDeclaration name), t.start, ts⟩
      | none => .error ⟨"destructuring in an exported declaration", rest.head?⟩
    else
      match declaredName? ts with
      | some name => .ok ⟨some (.exportDeclaration name), t.start, ts⟩
      | none => .error ⟨"unrecognized export form", some t⟩

/-- Reads the form that the keyword `t` starts. -/
def readForm (t : Token) (ts : List Token) : Except SyntaxFault Found :=
  if t.text = "import" then readImport t.stop ts else readExport t.stop ts

/-! ## Reading always moves forward -/

theorem readNames_cutsAt {ts : List Token} {r : Read (List NamePair)}
    (h : readNames ts = .ok r) : CutsAt ts r.stop r.rest := by
  fun_induction readNames ts generalizing r with
  | case1 => simp at h
  | case2 t ts _ => simp only [Except.ok.injEq] at h; subst h; exact .of_cons t ts
  | case3 => simp at h
  | case4 => simp at h
  | case5 => simp at h
  | case6 t ts _ _ pair s rest hr _ ih =>
    cases hn : readNames rest with
    | error e => simp [hn, Except.map] at h
    | ok q =>
      simp only [hn, Except.map, Except.ok.injEq] at h
      subst h
      exact (ih hn).of_isSuffix (((List.suffix_cons s rest).trans (readAlias_isSuffix hr)).trans
        (List.suffix_cons t ts))
  | case7 t ts _ _ pair s rest hr _ _ =>
    simp only [Except.ok.injEq] at h
    subst h
    exact (CutsAt.of_cons s rest).of_isSuffix
      ((readAlias_isSuffix hr).trans (List.suffix_cons t ts))
  | case8 => simp at h

theorem afterBrace?_cutsAt {ts rest : List Token} {stop : Nat}
    (h : afterBrace? ts = some (stop, rest)) : CutsAt ts stop rest := by
  induction ts with
  | nil => simp [afterBrace?] at h
  | cons t ts ih =>
    simp only [afterBrace?] at h
    split at h
    · simp only [Option.some.injEq, Prod.mk.injEq] at h
      obtain ⟨rfl, rfl⟩ := h
      exact .of_cons t ts
    · exact (ih h).of_isSuffix (List.suffix_cons t ts)

theorem skipAttributes_cutsAt {stop stop' : Nat} {all ts rest : List Token}
    (h : skipAttributes stop ts = .ok (stop', rest)) (hts : CutsAt all stop ts) :
    CutsAt all stop' rest := by
  simp only [skipAttributes] at h
  split at h
  · split at h
    next found hf =>
      simp only [Except.ok.injEq] at h
      subst h
      exact (afterBrace?_cutsAt hf).of_isSuffix
        (((List.tail_suffix _).trans (List.tail_suffix _)).trans hts.isSuffix)
    next => simp at h
  · simp only [Except.ok.injEq, Prod.mk.injEq] at h
    obtain ⟨rfl, rfl⟩ := h
    exact hts

theorem takeSemicolon_cutsAt {stop : Nat} {all ts : List Token} (hts : CutsAt all stop ts) :
    CutsAt all (takeSemicolon stop ts).1 (takeSemicolon stop ts).2 := by
  cases ts with
  | nil => exact hts
  | cons t ts =>
    simp only [takeSemicolon]
    split
    · exact hts.next
    · exact hts

theorem readDefaultName_isSuffix {ts rest : List Token} {name : Option String}
    (h : readDefaultName ts = .ok (name, rest)) : rest <:+ ts := by
  cases ts with
  | nil =>
    simp only [readDefaultName, Except.ok.injEq, Prod.mk.injEq] at h
    simp [← h.2]
  | cons t ts =>
    simp only [readDefaultName] at h
    split at h
    · split at h
      · split at h
        · simp only [Except.ok.injEq, Prod.mk.injEq] at h
          obtain ⟨-, rfl⟩ := h
          exact (List.tail_suffix ts).trans (List.suffix_cons t ts)
        · simp at h
      · simp only [Except.ok.injEq, Prod.mk.injEq] at h
        obtain ⟨-, rfl⟩ := h
        exact List.suffix_cons t ts
    · simp only [Except.ok.injEq, Prod.mk.injEq] at h
      obtain ⟨-, rfl⟩ := h
      exact List.suffix_refl _

theorem readClause_isSuffix {ts rest : List Token} {c : ImportClause}
    (h : readClause ts = .ok (c, rest)) : rest <:+ ts := by
  simp only [readClause, bind, Except.bind] at h
  split at h
  next => simp at h
  next found hd =>
    obtain ⟨name, ts'⟩ := found
    refine List.IsSuffix.trans ?_ (readDefaultName_isSuffix hd)
    simp only at h
    split at h
    -- a namespace: the asterisk, `as` and the name are dropped
    · split at h
      · split at h
        next => simp at h
        next r hr =>
          simp only [pure, Except.pure, Except.ok.injEq, Prod.mk.injEq] at h
          obtain ⟨-, rfl⟩ := h
          exact ((readName_cutsAt hr).isSuffix.trans (List.tail_suffix _)).trans
            (List.tail_suffix _)
      · simp [throw, throwThe, MonadExceptOf.throw] at h
    -- names in braces, or the default binding alone
    · split at h
      · split at h
        next => simp at h
        next r hr =>
          simp only [pure, Except.pure, Except.ok.injEq, Prod.mk.injEq] at h
          obtain ⟨-, rfl⟩ := h
          exact (readNames_cutsAt hr).isSuffix.trans (List.tail_suffix _)
      · split at h
        · simp only [pure, Except.pure, Except.ok.injEq, Prod.mk.injEq] at h
          obtain ⟨-, rfl⟩ := h
          exact List.suffix_refl _
        · simp [throw, throwThe, MonadExceptOf.throw] at h

theorem readImport_cutsAt {stop : Nat} {all ts : List Token} {r : Found}
    (h : readImport stop ts = .ok r) (hts : CutsAt all stop ts) :
    CutsAt all r.stop r.rest := by
  cases ts with
  | nil => simp [readImport] at h
  | cons t rest =>
    simp only [readImport] at h
    split at h
    -- `import.meta`
    · simp only [Except.ok.injEq] at h; subst h; exact hts
    split at h
    -- a call
    · split at h
      next s close after =>
        split at h
        · cases hr : readSpecifier (s :: close :: after) with
          | error e => simp [hr, Except.map] at h
          | ok q =>
            simp only [hr, Except.map, Except.ok.injEq] at h
            subst h
            exact hts.next.next.next
        · simp only [Except.ok.injEq] at h; subst h; exact hts.next
      next => simp only [Except.ok.injEq] at h; subst h; exact hts.next
    split at h
    -- a specifier alone
    · simp only [bind, Except.bind] at h
      split at h
      next => simp at h
      next q hq =>
        simp only [pure, Except.pure, Except.ok.injEq] at h
        subst h
        exact takeSemicolon_cutsAt ((readSpecifier_cutsAt hq).of_isSuffix hts.isSuffix)
    -- bindings and a specifier
    · simp only [bind, Except.bind] at h
      split at h
      next => simp at h
      next found hc =>
        obtain ⟨clause, ts'⟩ := found
        simp only at h
        split at h
        · split at h
          next => simp at h
          next q hq =>
            split at h
            next => simp at h
            next skipped hs =>
              obtain ⟨stop', rest'⟩ := skipped
              simp only [pure, Except.pure, Except.ok.injEq] at h
              subst h
              have hread : CutsAt all q.stop q.rest := (readSpecifier_cutsAt hq).of_isSuffix
                (((List.tail_suffix _).trans (readClause_isSuffix hc)).trans hts.isSuffix)
              exact takeSemicolon_cutsAt (skipAttributes_cutsAt hs hread)
        · simp [throw, throwThe, MonadExceptOf.throw] at h

theorem readExportAlias_isSuffix {ts rest : List Token} {asName : Option String}
    (h : readExportAlias ts = .ok (asName, rest)) : rest <:+ ts := by
  simp only [readExportAlias] at h
  split at h
  · cases hr : readName ts.tail with
    | error e => simp [hr, Except.map] at h
    | ok q =>
      simp only [hr, Except.map, Except.ok.injEq, Prod.mk.injEq] at h
      obtain ⟨-, rfl⟩ := h
      exact (readName_cutsAt hr).isSuffix.trans (List.tail_suffix _)
  · simp only [Except.ok.injEq, Prod.mk.injEq] at h
    obtain ⟨-, rfl⟩ := h
    exact List.suffix_refl _

theorem readExportAll_cutsAt {ts : List Token} {r : Found}
    (h : readExportAll ts = .ok r) : CutsAt ts r.stop r.rest := by
  simp only [readExportAll, bind, Except.bind] at h
  split at h
  next => simp at h
  next found hf =>
    obtain ⟨asName, ts'⟩ := found
    refine CutsAt.of_isSuffix ?_ (readExportAlias_isSuffix hf)
    simp only at h
    split at h
    · split at h
      next => simp at h
      next q hq =>
        simp only [pure, Except.pure, Except.ok.injEq] at h
        subst h
        exact takeSemicolon_cutsAt ((readSpecifier_cutsAt hq).of_isSuffix (List.tail_suffix _))
    · simp [throw, throwThe, MonadExceptOf.throw] at h

theorem readExportNames_cutsAt {ts : List Token} {r : Found}
    (h : readExportNames ts = .ok r) : CutsAt ts r.stop r.rest := by
  simp only [readExportNames, bind, Except.bind] at h
  split at h
  next => simp at h
  next names hn =>
    have hnames := readNames_cutsAt hn
    split at h
    · split at h
      next => simp at h
      next q hq =>
        simp only [pure, Except.pure, Except.ok.injEq] at h
        subst h
        exact takeSemicolon_cutsAt ((readSpecifier_cutsAt hq).of_isSuffix
          ((List.tail_suffix _).trans hnames.isSuffix))
    · simp only [pure, Except.pure, Except.ok.injEq] at h
      subst h
      exact takeSemicolon_cutsAt hnames

theorem readExport_cutsAt {stop : Nat} {t : Token} {ts : List Token} {r : Found}
    (h : readExport stop ts = .ok r) (hstop : stop = t.stop) : CutsAt (t :: ts) r.stop r.rest := by
  cases ts with
  | nil => simp [readExport] at h
  | cons d rest =>
    have hcons : rest <:+ t :: d :: rest :=
      (List.suffix_cons d rest).trans (List.suffix_cons t _)
    simp only [readExport] at h
    split at h
    · simp only [Except.ok.injEq] at h; subst h; subst hstop; exact .of_cons t _
    split at h
    · exact (readExportNames_cutsAt h).of_isSuffix hcons
    split at h
    · exact (readExportAll_cutsAt h).of_isSuffix hcons
    split at h
    -- a default: its declaration starts the tokens that follow
    · split at h
      · simp only [Except.ok.injEq] at h
        subst h
        exact (CutsAt.before_next d _ _).of_isSuffix (List.suffix_cons t _)
      · simp only [Except.ok.injEq] at h
        subst h
        exact (CutsAt.of_cons d _).of_isSuffix (List.suffix_cons t _)
    split at h
    · split at h
      · simp only [Except.ok.injEq] at h; subst h; exact .before_next t d rest
      · simp at h
    · split at h
      · simp only [Except.ok.injEq] at h; subst h; exact .before_next t d rest
      · simp at h

/-- A form that has been read ends between two tokens, after at least its keyword. -/
theorem readForm_cutsAt {t : Token} {ts : List Token} {r : Found}
    (h : readForm t ts = .ok r) : CutsAt (t :: ts) r.stop r.rest := by
  simp only [readForm] at h
  split at h
  · exact readImport_cutsAt h (.of_cons t ts)
  · exact readExport_cutsAt h rfl

theorem readForm_length_le {t : Token} {ts : List Token} {r : Found}
    (h : readForm t ts = .ok r) : r.rest.length ≤ ts.length := by
  obtain ⟨used, last, heq, -⟩ := readForm_cutsAt h
  have := congrArg List.length heq
  simp only [List.length_cons, List.length_append] at this
  omega

/-! ## All statements of a module -/

/-- The statements of a module in order, up to the first form that is not supported. -/
structure Outline where
  /-- Statements that were read. -/
  statements : List Statement
  /-- Why reading stopped, if it did before the end. -/
  fault : Option SyntaxFault
  deriving DecidableEq, Repr

/-- Whether the token is one of the two keywords. -/
def isKeyword (t : Token) : Bool :=
  t.isWord "import" || t.isWord "export"

/-- Finds the statements in tokens; `afterDot` tells whether the token before them is a member
access. After a dot or before a colon the keywords are names of properties. -/
def outline (afterDot : Bool) (ts : List Token) : Outline :=
  match ts with
  | [] => ⟨[], none⟩
  | t :: ts =>
    if isKeyword t && !afterDot && !startsPunct ":" ts then
      match _h : readForm t ts with
      | .error fault => ⟨[], some fault⟩
      | .ok r =>
        match r.value with
        | none => outline false r.rest
        | some form =>
          let later := outline false r.rest
          ⟨⟨t.start, r.stop, form⟩ :: later.statements, later.fault⟩
    -- any other token only matters as what stands before the next one
    else outline (t.isPunct "." || t.isPunct "?.") ts
  termination_by ts.length
  decreasing_by
    all_goals try have := readForm_length_le _h
    all_goals simp only [List.length_cons]
    all_goals omega

end Statement

end EdgeBundle
