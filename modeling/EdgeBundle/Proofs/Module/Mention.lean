import EdgeBundle.Proofs.Module.Builtin

/-!
# Mentions of modules

A module mentions another one by a string: as the specifier of an import, of an export from another
module, or in a call to import. The search for statements finds every mention that is neither the
name of a property nor part of another statement, and what it reads there is a form that names the
module.

## Main definitions

* `Mention`: a mention with its keyword, its string and when it is read.
* `Mention.StandsIn`: the mention stands among tokens.
* `FindsMentions`: the mentions that the search for statements finds.

## Main statements

* `exists_mention_of_readForm`: the mention that a form has been read from.
* `exists_statement_of_starts`: a mention that no other statement takes with it is found.
* `exists_findsMentions`: the statements with their mentions.
-/

namespace EdgeBundle

open Statement

/-- The specifier that a form names, and when the reference to it is read. -/
def Form.named? : Form → Option (String × ReferenceKind)
  | .bareImport specifier | .importFrom _ specifier | .exportNamesFrom _ specifier
  | .exportAll _ specifier => some (specifier, .atLoad)
  | .importCall specifier => some (specifier, .onCall)
  | .computedImport | .exportNames _ | .exportDefaultDeclaration _ | .exportDefault
  | .exportDeclaration _ => none

theorem StaticForm.named?_form (f : StaticForm) (specifier : String) :
    (f.form specifier).named? = some (specifier, .atLoad) := by
  cases f <;> rfl

/-- A mention of a module in tokens. -/
structure Mention where
  /-- Keyword that the statement or call starts with. -/
  keyword : Token
  /-- String that names the module. -/
  quote : Token
  /-- When the reference is read. -/
  kind : ReferenceKind
  deriving DecidableEq, Repr

namespace Mention

/-- The tokens start with the mention. It is an import, with bindings or without, an export of names
or of everything from another module, or a call to import with one string. -/
inductive Starts : Mention → List Token → Prop
  | static {f : StaticForm} {k s : Token} {head rest : List Token} (hhead : f.Heads (k :: head))
      (hs : s.kind = .str) : Starts ⟨k, s, .atLoad⟩ (k :: (head ++ s :: rest))
  | call {k opening s closing : Token} {rest : List Token} (hk : k.isWord "import" = true)
      (hopening : opening.isPunct "(" = true) (hs : s.kind = .str)
      (hclosing : closing.isPunct ")" = true) :
      Starts ⟨k, s, .onCall⟩ (k :: opening :: s :: closing :: rest)

/-- The mention stands somewhere among the tokens. -/
def StandsIn (x : Mention) (tokens : List Token) : Prop :=
  ∃ ts, ts <:+ tokens ∧ x.Starts ts

variable {x y : Mention} {ts : List Token}

/-- The string of a mention is the first one from its keyword on. -/
theorem Starts.exists_split (h : x.Starts ts) :
    ∃ head rest, ts = x.keyword :: (head ++ x.quote :: rest) ∧
      (∀ t ∈ x.keyword :: head, t.kind ≠ .str) ∧ x.quote.kind = .str := by
  cases h with
  | @static f k s head rest hhead hs => exact ⟨head, rest, rfl, hhead.kind_ne_str, hs⟩
  | @call k opening s closing rest hk hopening hs hclosing =>
    refine ⟨[opening], closing :: rest, rfl, ?_, hs⟩
    simp [kind_ne_str_of_isWord hk, kind_ne_str_of_isPunct hopening]

/-- What is read from a mention on is a form that names its module. -/
theorem Starts.exists_named? {k : Token} {after : List Token} {r : Found}
    (h : x.Starts (k :: after)) (hread : readForm k after = .ok r) :
    ∃ form, r.value = some form ∧ form.named? = some (specifierText x.quote, x.kind) := by
  cases h with
  | @static f _ s head rest hhead hs =>
    exact ⟨_, hhead.value_of_readForm hs hread, f.named?_form _⟩
  | @call _ opening s closing rest hk hopening hs hclosing =>
    rw [readForm, if_pos (Token.isWord_iff.mp hk).2] at hread
    -- an escape in the string would be a fault
    by_cases hescape : '\\' ∈ s.text.toList.tail.dropLast
    · have hdot : opening.isPunct "." = false :=
        Token.isPunct_eq_false_of_ne hopening (by decide)
      simp only [readImport, hdot, hopening, hs, hclosing, and_self, Bool.false_eq_true, if_false,
        if_true, readSpecifier, if_pos hescape] at hread
      cases hread
    · rw [readImport_call hopening hs hescape hclosing] at hread
      cases hread
      exact ⟨_, rfl, rfl⟩

/-- Where a form is read there is one mention. -/
theorem Starts.unique {k : Token} {after : List Token} {r : Found}
    (hread : readForm k after = .ok r) (hx : x.Starts (k :: after)) (hy : y.Starts (k :: after)) :
    x = y := by
  obtain ⟨form, hform, hnamed⟩ := hx.exists_named? hread
  obtain ⟨form', hform', hnamed'⟩ := hy.exists_named? hread
  obtain rfl : form = form' := Option.some.inj (hform.symm.trans hform')
  -- the form says when the module is read, and the first string of the tokens which one it is
  have hkind : x.kind = y.kind := (Prod.mk.inj (Option.some.inj (hnamed.symm.trans hnamed'))).2
  obtain ⟨head, rest, hts, hbefore, hs⟩ := hx.exists_split
  obtain ⟨head', rest', hts', hbefore', hs'⟩ := hy.exists_split
  obtain ⟨hhead, hquote⟩ := eq_of_first_str (hts.symm.trans hts') hbefore hbefore' hs hs'
  have hkeyword := (List.cons.inj hhead).1
  cases x
  cases y
  simp_all

end Mention

/-! ## Mentions that have been read -/

section Read

open Mention

variable {k : Token} {ts rest : List Token} {form : Form} {stop : Nat} {specifier : String}
  {kind : ReferenceKind}

/-- A form that names a module is a mention of it. -/
theorem exists_starts_of_readForm (hkey : isKeyword k = true)
    (h : readForm k ts = .ok ⟨some form, stop, rest⟩)
    (hnamed : form.named? = some (specifier, kind)) :
    ∃ quote, specifierText quote = specifier ∧ Starts ⟨k, quote, kind⟩ (k :: ts) := by
  cases (readForm_eq_ok_iff hkey).mp h with
  | @static f head rest s _ hhead hs hend =>
    obtain rfl := Option.some.inj (StaticForm.value_of_readEnd hend)
    rw [f.named?_form] at hnamed
    cases hnamed
    exact ⟨s, rfl, .static hhead hs⟩
  | @call opening s _ _ hk hopening hs _ hclosing =>
    cases hnamed
    exact ⟨s, rfl, .call hk hopening hs hclosing⟩
  -- exports of the module itself name no other one
  | computedCall | names | defaultDeclaration | default | variableDeclaration | declaration =>
    cases hnamed

/-- A form has been read from the one mention at its keyword, or from none if it names no module. -/
theorem exists_mention_of_readForm (hkey : isKeyword k = true)
    (h : readForm k ts = .ok ⟨some form, stop, rest⟩) :
    ∃ found : Option Mention, (∀ x, found = some x ↔ x.Starts (k :: ts)) ∧
      form.named? = found.map fun x => (specifierText x.quote, x.kind) := by
  cases hnamed : form.named? with
  | none =>
    refine ⟨none, fun x => ⟨fun hx => ?_, fun hx => ?_⟩, rfl⟩
    · cases hx
    · obtain ⟨form', hform', hsome⟩ := hx.exists_named? h
      obtain rfl := Option.some.inj hform'
      rw [hnamed] at hsome
      cases hsome
  | some named =>
    obtain ⟨specifier, kind⟩ := named
    obtain ⟨quote, rfl, hstarts⟩ := exists_starts_of_readForm hkey h hnamed
    refine ⟨some ⟨k, quote, kind⟩, fun x => ⟨fun hx => ?_, fun hx => ?_⟩, rfl⟩
    · cases hx
      exact hstarts
    · exact congrArg some (hstarts.unique h hx)

end Read

/-! ## Mentions that the search finds -/

namespace Statement

variable {tokens : List Token}

/-- Of tokens that start one after another each starts one end of them. -/
theorem eq_of_start_eq (htokens : tokens.Pairwise fun a b => a.start < b.start) {t u : Token}
    {ts us : List Token} (ht : t :: ts <:+ tokens) (hu : u :: us <:+ tokens)
    (h : t.start = u.start) : t :: ts = u :: us := by
  have hlater {t u : Token} {ts us : List Token} (hu : u :: us <:+ tokens) (h : t.start = u.start)
      (hmore : t :: ts <:+ u :: us) : t :: ts = u :: us := by
    rcases List.suffix_cons_iff.mp hmore with heq | hmore
    · exact heq
    · have hlt := (List.pairwise_cons.mp (htokens.sublist hu.sublist)).1 t
        (hmore.mem List.mem_cons_self)
      exact absurd h (Nat.ne_of_gt hlt)
  rcases List.suffix_or_suffix_of_suffix ht hu with hmore | hmore
  · exact hlater hu h hmore
  · exact (hlater ht h.symm hmore).symm

/-- The statements of an outline start one after another. -/
theorem pairwise_start_outline {afterDot : Bool} {ts : List Token}
    (hts : ts.Pairwise fun a b => a.start < b.start) :
    (outline afterDot ts).statements.Pairwise fun a b => a.start < b.start := by
  fun_induction outline afterDot ts with
  | case1 => exact .nil
  | case2 => exact .nil
  | case3 _ t ts _ r hr _ ih => exact ih (hts.sublist (readForm_cutsAt hr).isSuffix.sublist)
  | case4 _ t ts _ r hr form _ later ih =>
    obtain ⟨hfirst, hts⟩ := List.pairwise_cons.mp hts
    have hrest := (readForm_cutsAt hr).isSuffix_tail
    refine .cons (fun s hs => ?_) (ih (hts.sublist hrest.sublist))
    -- a later statement starts with a token after the keyword
    obtain ⟨used, u, after, _, heq, -, hstart, -⟩ := exists_readForm_of_mem_outline hs
    have hu : u ∈ r.rest := by rw [heq]; simp
    rw [hstart]
    exact hfirst u (hrest.mem hu)
  | case5 _ t ts _ ih => exact ih (List.pairwise_cons.mp hts).2

/-- A statement has been read from the one mention that starts where it does, or from none if it
names no module. -/
theorem exists_mention_of_mem_outline (htokens : tokens.Pairwise fun a b => a.start < b.start)
    {s : Statement} (hs : s ∈ (outline false tokens).statements) :
    ∃ found : Option Mention,
      (∀ x, found = some x ↔ x.StandsIn tokens ∧ s.start = x.keyword.start) ∧
        s.form.named? = found.map fun x => (specifierText x.quote, x.kind) := by
  obtain ⟨used, k, after, rest, heq, hkey, hstart, hread⟩ := exists_readForm_of_mem_outline hs
  obtain ⟨found, hfound, hnamed⟩ := exists_mention_of_readForm hkey hread
  have hsuffix : k :: after <:+ tokens := ⟨used, heq.symm⟩
  refine ⟨found, fun x => (hfound x).trans ⟨fun hx => ?_, ?_⟩, hnamed⟩
  · obtain ⟨head, more, hsplit, -⟩ := hx.exists_split
    refine ⟨⟨_, hsuffix, hx⟩, ?_⟩
    rw [hstart, (List.cons.inj hsplit).1]
  · rintro ⟨⟨ts, hts, hx⟩, hsame⟩
    obtain ⟨head, more, rfl, -⟩ := hx.exists_split
    rwa [eq_of_start_eq htokens hsuffix hts (hstart.symm.trans hsame)]

end Statement

/-- A mention starts a form where it is no property. -/
theorem Mention.Starts.startsForm {x : Mention} {k : Token} {after : List Token}
    (h : x.Starts (k :: after)) : startsForm false k after = true := by
  cases h with
  | static hhead hs => exact hhead.startsForm hs _
  | @call _ opening s closing rest hk hopening hs hclosing =>
    have hcolon : opening.isPunct ":" = false :=
      Token.isPunct_eq_false_of_ne hopening (by decide)
    simp [Statement.startsForm, isKeyword, hk, hcolon]

theorem Mention.Starts.isKeyword {x : Mention} {k : Token} {after : List Token}
    (h : x.Starts (k :: after)) : isKeyword k = true := by
  have hstarts := h.startsForm
  simp only [Statement.startsForm, Bool.and_eq_true] at hstarts
  exact hstarts.1.1

/-- What is taken without a form has no keyword. -/
theorem Statement.Takes.isKeyword_eq_false {k : Token} {taken : List Token}
    (h : Takes k taken none) : ∀ t ∈ taken, isKeyword t = false := by
  cases h with
  | other htaken => exact htaken

/-- A token before a cut ends before it. -/
theorem Statement.CutsAt.stop_le_of_mem {ts rest taken : List Token} {stop : Nat} {t : Token}
    (h : CutsAt ts stop rest) (hts : Statement.InOrder ts) (htaken : ts = taken ++ rest)
    (ht : t ∈ taken) : t.stop ≤ stop := by
  obtain ⟨used, last, heq, hstop⟩ := h
  have htaken' : taken ++ rest = used ++ [last] ++ rest := by
    rw [← htaken, heq, List.append_assoc, List.singleton_append]
  obtain rfl : taken = used ++ [last] := List.append_cancel_right htaken'
  have hlast : t.stop ≤ last.stop := by
    rw [heq] at hts
    rcases List.mem_append.mp ht with ht | ht
    · have hle := (List.pairwise_append.mp hts.pairwise).2.2 t ht last List.mem_cons_self
      exact Nat.le_trans hle (hts.start_le_stop last (by simp))
    · rw [List.mem_singleton.mp ht]
  rcases hstop with rfl | ⟨next, hnext, rfl⟩
  · exact hlast
  · rw [htaken] at hts
    have hle := (List.pairwise_append.mp hts.pairwise).2.2 last (by simp) next
      (List.mem_of_mem_head? hnext)
    exact Nat.le_trans hlast hle

/-- Reading on from the start finds a statement at each mention that is no property, unless the
mention is part of another statement. -/
theorem exists_statement_of_starts {x : Mention} {us : List Token} (hx : x.Starts us)
    {afterDot : Bool} {ts before : List Token} (hts : ts = before ++ us)
    (horder : Statement.InOrder ts) (hlt : ∀ t ∈ ts, t.start < t.stop)
    (hstart : before = [] → afterDot = false) (hdot : endsInAccess before = false)
    (hfault : (outline afterDot ts).fault = none) :
    ∃ s ∈ (outline afterDot ts).statements, s.start = x.keyword.start ∨
      s.start < x.keyword.start ∧ x.keyword.start < s.stop := by
  obtain ⟨head, rest, rfl, -⟩ := hx.exists_split
  cases outline_meets hx.startsForm hts hstart hdot hfault with
  | reads hread hfound =>
    obtain ⟨form, hform, -⟩ := hx.exists_named? hread
    exact ⟨_, hfound form hform, .inl rfl⟩
  | @taken earlier inner taken t r hbefore hafter hread htakes hfound =>
    have hsuffix : t :: (inner ++ x.keyword :: (head ++ x.quote :: rest)) <:+ ts :=
      ⟨earlier, by rw [hts, hbefore, List.append_assoc, List.cons_append]⟩
    have horder' := horder.of_suffix hsuffix
    cases hvalue : r.value with
    | none =>
      -- what is no form takes no keyword
      have hkey := hx.isKeyword
      rw [hvalue] at htakes
      rw [htakes.isKeyword_eq_false x.keyword (by simp)] at hkey
      cases hkey
    | some form =>
      have htaken : t :: (inner ++ x.keyword :: (head ++ x.quote :: rest)) =
          t :: (inner ++ x.keyword :: taken) ++ r.rest := by
        simp [hafter]
      have hstop : x.keyword.stop ≤ r.stop :=
        (readForm_cutsAt hread).stop_le_of_mem horder' htaken (by simp)
      have hafter : t.stop ≤ x.keyword.start :=
        (List.pairwise_cons.mp horder'.pairwise).1 _ (by simp)
      have hbefore := hlt t (hsuffix.mem List.mem_cons_self)
      have hinside := hlt x.keyword (hsuffix.mem (by simp))
      exact ⟨_, hfound form hvalue, .inr ⟨Nat.lt_of_lt_of_le hbefore hafter,
        Nat.lt_of_lt_of_le hinside hstop⟩⟩

/-- The mentions are those among the tokens at which the search finds a statement, in order. -/
structure FindsMentions (tokens : List Token) (mentions : List Mention) : Prop where
  /-- At each of them, and at no other mention, a statement has been found. -/
  mem_iff : ∀ x, x ∈ mentions ↔
    x.StandsIn tokens ∧ ∃ s ∈ (outline false tokens).statements, s.start = x.keyword.start
  /-- A mention that is no property is one of them, or is part of a statement before it. -/
  complete : ∀ x before ts, tokens = before ++ ts → x.Starts ts → endsInAccess before = false →
    x ∈ mentions ∨ ∃ s ∈ (outline false tokens).statements,
      s.start < x.keyword.start ∧ x.keyword.start < s.stop
  /-- Their keywords stand one after another. -/
  pairwise : mentions.Pairwise fun a b => a.keyword.start < b.keyword.start

/-- Tokens that are in order and not empty start one after another. -/
theorem Statement.InOrder.pairwise_start {tokens : List Token} (horder : Statement.InOrder tokens)
    (hlt : ∀ t ∈ tokens, t.start < t.stop) : tokens.Pairwise fun a b => a.start < b.start :=
  horder.pairwise.imp_of_mem fun ha _ hle => Nat.lt_of_lt_of_le (hlt _ ha) hle

/-- Every statement with the mention that it has been read from. -/
theorem exists_findsMentions {tokens : List Token} (horder : Statement.InOrder tokens)
    (hlt : ∀ t ∈ tokens, t.start < t.stop) (hfault : (outline false tokens).fault = none) :
    ∃ mention : Statement → Option Mention,
      FindsMentions tokens ((outline false tokens).statements.filterMap mention) ∧
        ∀ s ∈ (outline false tokens).statements,
          (∀ x, mention s = some x → s.start = x.keyword.start) ∧
            s.form.named? = (mention s).map fun x => (specifierText x.quote, x.kind) := by
  have htokens := horder.pairwise_start hlt
  have hfound := fun s (hs : s ∈ (outline false tokens).statements) =>
    Statement.exists_mention_of_mem_outline htokens hs
  choose! mention hmention hnamed using hfound
  have hmem : ∀ x, x ∈ (outline false tokens).statements.filterMap mention ↔
      x.StandsIn tokens ∧ ∃ s ∈ (outline false tokens).statements, s.start = x.keyword.start := by
    intro x
    rw [List.mem_filterMap]
    constructor
    · rintro ⟨s, hs, hx⟩
      obtain ⟨hstands, hstart⟩ := (hmention s hs x).mp hx
      exact ⟨hstands, s, hs, hstart⟩
    · rintro ⟨hstands, s, hs, hstart⟩
      exact ⟨s, hs, (hmention s hs x).mpr ⟨hstands, hstart⟩⟩
  refine ⟨mention, ⟨hmem, ?_, ?_⟩, fun s hs =>
    ⟨fun x hx => ((hmention s hs x).mp hx).2, hnamed s hs⟩⟩
  · intro x before ts hts hx hdot
    obtain ⟨s, hs, hstart | hinside⟩ :=
      exists_statement_of_starts hx hts horder hlt (fun _ => rfl) hdot hfault
    · exact .inl ((hmem x).mpr ⟨⟨ts, ⟨before, hts.symm⟩, hx⟩, s, hs, hstart⟩)
    · exact .inr ⟨s, hs, hinside⟩
  · refine List.pairwise_filterMap.mpr ?_
    refine (Statement.pairwise_start_outline htokens).imp_of_mem ?_
    intro s s' hs hs' hlt x hx y hy
    rwa [← ((hmention s hs x).mp hx).2, ← ((hmention s' hs' y).mp hy).2]

end EdgeBundle
