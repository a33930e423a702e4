import EdgeBundle.Proofs.Module.Attributes
import EdgeBundle.Proofs.Token.Brackets

/-!
# Anonymous default exports

A function or class without a name that is exported as the default becomes the right-hand side of an
assignment. It keeps its text, and nothing is put after it, so that an assignment stands where a
declaration did, and a line break alone parts it from the text that follows.

## Main definitions

* `Statement.AnonymousDeclaration`: functions and classes without a name, as tokens.

## Main statements

* `Statement.AnonymousDeclaration.declaredName?_eq_none`: they declare no name.
* `LinkedModule.ofSource_anonymousDefault`: what stands between them and the text that follows.
-/

namespace EdgeBundle

open Lexer

namespace Statement

/-- Tokens in brackets, with nested brackets inside. -/
inductive Bracketed (opening closing : String) : List Token → Prop
  | mk {o c : Token} {inner : List Token} (hopening : o.isPunct opening = true)
      (hinner : Nested inner) (hclosing : c.isPunct closing = true) :
      Bracketed opening closing (o :: (inner ++ [c]))

/-- A function, perhaps asynchronous or a generator, or a class, without a name. -/
inductive AnonymousDeclaration : List Token → Prop
  | ofFunction {before star parameters body : List Token} {f : Token}
      (hbefore : before = [] ∨ ∃ a, a.isWord "async" = true ∧ before = [a])
      (hfunction : f.isWord "function" = true)
      (hstar : star = [] ∨ ∃ s, s.isPunct "*" = true ∧ star = [s])
      (hparameters : Bracketed "(" ")" parameters) (hbody : Bracketed "\x7b" "\x7d" body) :
      AnonymousDeclaration (before ++ f :: (star ++ (parameters ++ body)))
  | ofClass {heritage body : List Token} {k : Token} (hclass : k.isWord "class" = true)
      (hheritage : heritage = [] ∨
        ∃ e value, e.isWord "extends" = true ∧ Nested value ∧ heritage = e :: value)
      (hbody : Bracketed "\x7b" "\x7d" body) : AnonymousDeclaration (k :: (heritage ++ body))

/-- Brackets are no names. -/
theorem Bracketed.headName?_append {opening closing : String} {ts : List Token}
    (h : Bracketed opening closing ts) (rest : List Token) : headName? (ts ++ rest) = none := by
  obtain ⟨hopening, -, -⟩ := h
  simp [headName?, (Token.isPunct_iff.mp hopening).1]

theorem Bracketed.startsPunct_append {opening closing : String} {ts : List Token}
    (h : Bracketed opening closing ts) {p : String} (hp : opening ≠ p) (rest : List Token) :
    startsPunct p (ts ++ rest) = false := by
  obtain ⟨hopening, -, -⟩ := h
  exact Token.isPunct_eq_false_of_ne hopening hp

theorem Bracketed.startsWord_append {opening closing : String} {ts : List Token}
    (h : Bracketed opening closing ts) (w : String) (rest : List Token) :
    startsWord w (ts ++ rest) = false := by
  obtain ⟨hopening, -, -⟩ := h
  exact Token.isWord_eq_false_of_isPunct hopening w

/-- Statements after an expression that is exported as the default are those after the keywords. -/
theorem outline_exportDefault {e d : Token} {ts : List Token} (he : e.isWord "export" = true)
    (hd : d.isWord "default" = true) (hname : declaredName? ts = none) :
    outline false (e :: d :: ts) =
      ⟨⟨e.start, d.stop, .exportDefault⟩ :: (outline false ts).statements,
        (outline false ts).fault⟩ := by
  have hcolon : startsPunct ":" (d :: ts) = false := Token.isPunct_eq_false_of_isWord hd ":"
  have hstarts : startsForm false e (d :: ts) = true := by
    simp [startsForm, isKeyword, he, hcolon]
  exact outline_cons_of_form hstarts (FormRead.default he hd hname).readForm_eq

namespace AnonymousDeclaration

variable {decl : List Token}

/-- A function or class without a name declares none. -/
theorem declaredName?_eq_none (h : AnonymousDeclaration decl) (rest : List Token) :
    declaredName? (decl ++ rest) = none := by
  cases h with
  | @ofFunction before star parameters body f hbefore hfunction hstar hparameters hbody =>
    have hname : declaredName? (f :: (star ++ (parameters ++ body)) ++ rest) = none := by
      have hasync : f.isWord "async" = false := Token.isWord_eq_false_of_ne hfunction (by decide)
      rcases hstar with rfl | ⟨s, hs, rfl⟩
      · have hnone := hparameters.headName?_append (body ++ rest)
        have hnot := hparameters.startsPunct_append (p := "*") (by decide) (body ++ rest)
        simp [declaredName?, hasync, hfunction, hnot, hnone]
      · have hnone := hparameters.headName?_append (body ++ rest)
        simp [declaredName?, hasync, hfunction, hs, hnone]
    -- a word before the function is stepped over
    rcases hbefore with rfl | ⟨a, ha, rfl⟩
    · exact hname
    · have htail : declaredName? ([a] ++ f :: (star ++ (parameters ++ body)) ++ rest) =
          declaredName? (f :: (star ++ (parameters ++ body)) ++ rest) := by
        have hasync : f.isWord "async" = false := Token.isWord_eq_false_of_ne hfunction (by decide)
        simp [declaredName?, ha, hasync, hfunction]
      rw [htail, hname]
  | @ofClass heritage body k hclass hheritage hbody =>
    have hother : k.isWord "async" = false ∧ k.isWord "function" = false :=
      ⟨Token.isWord_eq_false_of_ne hclass (by decide),
        Token.isWord_eq_false_of_ne hclass (by decide)⟩
    rcases hheritage with rfl | ⟨e, value, he, -, rfl⟩
    · have hnone := hbody.headName?_append rest
      have hnot := hbody.startsWord_append "extends" rest
      simp [declaredName?, hother, hclass, hnot, hnone]
    · simp [declaredName?, hother, hclass, he]

/-- A declaration ends with the closing brace of its body. -/
theorem exists_concat (h : AnonymousDeclaration decl) :
    ∃ inner closing, decl = inner ++ [closing] ∧ closing.isPunct "\x7d" = true := by
  have hbraces {body : List Token} (h : Bracketed "\x7b" "\x7d" body) :
      ∃ inner closing, body = inner ++ [closing] ∧ closing.isPunct "\x7d" = true := by
    obtain ⟨-, -, hclosing⟩ := h
    exact ⟨_ :: _, _, rfl, hclosing⟩
  cases h with
  | @ofFunction before star parameters _ f _ _ _ _ hbody =>
    obtain ⟨inner, closing, rfl, hclosing⟩ := hbraces hbody
    exact ⟨before ++ f :: (star ++ (parameters ++ inner)), closing, by simp, hclosing⟩
  | @ofClass heritage _ k _ _ hbody =>
    obtain ⟨inner, closing, rfl, hclosing⟩ := hbraces hbody
    exact ⟨k :: (heritage ++ inner), closing, by simp, hclosing⟩

/-- An anonymous declaration after `export default` is read as an expression. -/
theorem readForm (h : AnonymousDeclaration decl) {e d : Token} (he : e.isWord "export" = true)
    (hd : d.isWord "default" = true) (rest : List Token) :
    Statement.readForm e (d :: (decl ++ rest)) =
      .ok ⟨some .exportDefault, d.stop, decl ++ rest⟩ :=
  (FormRead.default he hd (h.declaredName?_eq_none rest)).readForm_eq

end AnonymousDeclaration

end Statement

namespace LinkedModule

open Logged

variable {config : Config} {path : RelPath} {src : String}

/-- A keyword after a line break and a bracket or backtick stands behind both. -/
theorem le_start_of_keyword {tokens : List Token} {t : Token} {pre post : List Char} {c : Char}
    (htokens : tokenize src = .ok tokens) (ht : t ∈ tokens) (hkey : Statement.isKeyword t = true)
    (hsrc : src.toList = pre ++ '\n' :: c :: post) (hc : c ∈ ['(', '[', '`'])
    (hle : utf8Width pre ≤ t.start) : utf8Width (pre ++ ['\n', c]) ≤ t.start := by
  obtain ⟨before, after, hsplit, hstart⟩ := standsAt_of_tokenize htokens ht
  obtain ⟨letter, word, hword, hletter⟩ := Statement.exists_cons_of_isKeyword hkey
  have hnot : letter ∉ ['\n', '(', '[', '`'] := by rcases hletter with rfl | rfl <;> decide
  rw [hword] at hsplit
  rw [← hstart] at hle ⊢
  obtain ⟨mid, rfl, hmid⟩ := exists_append_of_width_le (hsrc.symm.trans hsplit) hle
  -- neither the line break nor the character after it starts a keyword
  rcases mid with - | ⟨x, - | ⟨y, mid⟩⟩
  · obtain ⟨rfl, -⟩ := List.cons.inj hmid
    exact absurd List.mem_cons_self hnot
  · obtain ⟨rfl, -⟩ := List.cons.inj (List.cons.inj hmid).2
    exact absurd (List.mem_cons_of_mem '\n' hc) hnot
  · obtain ⟨rfl, hrest⟩ := List.cons.inj hmid
    obtain ⟨rfl, -⟩ := List.cons.inj hrest
    rw [utf8Width_append, utf8Width_append]
    simp only [utf8Width_cons, utf8Width_nil]
    omega

/-- Edits from the statements after an anonymous declaration stand behind the line break. -/
theorem le_start_of_mem_edits {e d : Token} {decl us : List Token} {pre post : List Char} {c : Char}
    {site : Site} {line : Statement → Nat} {effects : List Effect} {x : Edit}
    (htokens : tokenize src = .ok (e :: d :: (decl ++ us)))
    (hdecl : Statement.AnonymousDeclaration decl)
    (hkeys : ∀ t ∈ decl, Statement.isKeyword t = false)
    (hsrc : src.toList = pre ++ '\n' :: c :: post) (hpre : utf8Width pre = lastStop decl 0)
    (hc : c ∈ ['(', '[', '`'])
    (heffects : List.Forall₂ (fun s e => (effect site (line s) s).result = .ok e)
      (Statement.outline false (decl ++ us)).statements effects)
    (hx : x ∈ effects.filterMap Effect.edit) : utf8Width (pre ++ ['\n', c]) ≤ x.start := by
  have hsuffix : decl ++ us <:+ e :: d :: (decl ++ us) := ⟨[e, d], rfl⟩
  have horder := (inOrder_of_tokenize htokens).of_suffix hsuffix
  obtain ⟨s, hs, hstart, -⟩ := exists_statement_of_mem_edits heffects hx
  obtain ⟨t, ht, hkey, hspan⟩ := (Statement.spans_of_mem_outline horder hs).exists_keyword
  rw [hstart, hspan]
  refine le_start_of_keyword htokens (hsuffix.mem ht) hkey hsrc hc ?_
  -- the keyword is none of the declaration
  have hus : t ∈ us := by
    refine (List.mem_append.mp ht).resolve_left fun hmem => ?_
    rw [hkeys t hmem] at hkey
    cases hkey
  obtain ⟨inner, closing, rfl, -⟩ := hdecl.exists_concat
  rw [hpre, lastStop_concat]
  exact (List.pairwise_append.mp horder.pairwise).2.2 closing (by simp) t hus

/-- The text up to an anonymous declaration, and that of the declaration. -/
theorem exists_default_split {e d : Token} {decl us : List Token} {pre rest : List Char}
    (htokens : tokenize src = .ok (e :: d :: (decl ++ us))) (he : e.isWord "export" = true)
    (hdecl : Statement.AnonymousDeclaration decl) (hsrc : src.toList = pre ++ rest)
    (hpre : utf8Width pre = lastStop decl 0) :
    ∃ before cut declaration, pre = before ++ ('e' :: cut ++ declaration) ∧
      utf8Width before = e.start ∧ utf8Width (before ++ 'e' :: cut) = d.stop ∧
      declaration.getLast? = some '\x7d' := by
  obtain ⟨inner, closing, rfl, hclosing⟩ := hdecl.exists_concat
  rw [lastStop_concat] at hpre
  have hcovers := (tokenize_eq_ok_iff.mp htokens).covers
  have hstands : ∀ t ∈ e :: d :: (inner ++ [closing] ++ us), t.StandsAt (pre ++ rest) :=
    fun t ht => hsrc ▸ standsAt_of_tokenize htokens ht
  have hstandsE := hstands e (by simp)
  have hstandsD := hstands d (by simp)
  have hstandsClosing := hstands closing (by simp)
  -- the tokens stand one behind the other
  have horder := hcovers.pairwise_stop_le_start
  have hed : e.stop ≤ d.start := (List.pairwise_cons.mp horder).1 d List.mem_cons_self
  have hdclosing : d.stop ≤ closing.start :=
    (List.pairwise_cons.mp (List.pairwise_cons.mp horder).2).1 closing (by simp)
  have hdlt : d.start < d.stop := hcovers.start_lt_stop (by simp)
  have hclosinglt : closing.start < closing.stop := hcovers.start_lt_stop (by simp)
  -- each of them is part of what the one before it leaves
  obtain ⟨before, tail, rfl, hbefore⟩ := hstandsE.exists_of_stop_le (by omega)
  have hstopE := Token.utf8Width_append_text hbefore
  rw [← List.append_assoc] at hpre hstandsD hstandsClosing
  rw [List.append_assoc] at hstandsD
  obtain ⟨gap, declaration, rfl, hgap⟩ := hstandsD.exists_between (by omega) (by omega)
  have hstopD := Token.utf8Width_append_text hgap
  rw [← List.append_assoc gap, ← List.append_assoc] at hpre hstandsClosing
  rw [List.append_assoc] at hstandsClosing
  rw [List.append_assoc _ gap] at hstopD
  obtain ⟨x, y, rfl, hx⟩ := hstandsClosing.exists_between (by omega) (by omega)
  -- the brace is the last character
  have hstopClosing := Token.utf8Width_append_text hx
  rw [← List.append_assoc x, ← List.append_assoc, utf8Width_append _ y, ← List.append_assoc,
    hstopClosing] at hpre
  obtain rfl : y = [] := utf8Width_eq_zero_iff.mp (by omega)
  have htext : e.text.toList = 'e' :: "xport".toList := by
    rw [(Token.isWord_iff.mp he).2]
    rfl
  have hbrace : closing.text.toList = ['\x7d'] := by
    rw [(Token.isPunct_iff.mp hclosing).2]
    rfl
  rw [htext] at hstopD ⊢
  refine ⟨before, "xport".toList ++ (gap ++ d.text.toList), x ++ (closing.text.toList ++ []), ?_,
    hbefore, ?_, ?_⟩
  · simp
  · rw [← hstopD]
    simp
  · rw [hbrace, List.append_nil, List.getLast?_concat]

/-- What takes the place of the first statement stands in the body right before text on which no
later edit lies. -/
theorem exists_apply_of_kept {t : Token} {ts : List Token} {pre cut kept post : List Char}
    {d : Char} {first : Effect} {effects : List Effect} {text : String}
    (htokens : tokenize src = .ok (t :: ts))
    (hsrc : src.toList = pre ++ d :: (cut ++ (kept ++ post))) (hstart : t.start = utf8Width pre)
    (hd : d ∉ ['#', '!', '\n'])
    (hedit : first.edit = some ⟨t.start, t.start + utf8Width (d :: cut), text⟩)
    (hordered : Edit.Ordered src.toList (editsOf src.toList (first :: effects)))
    (hle : ∀ x ∈ effects.filterMap Effect.edit, utf8Width (pre ++ d :: (cut ++ kept)) ≤ x.start) :
    ∃ lead rest, Edit.apply (editsOf src.toList (first :: effects)) src.toList =
      lead ++ (text.toList ++ (kept ++ rest)) := by
  obtain ⟨edits, lead, hlead, hedits⟩ := exists_lead htokens hsrc hstart hd
  have hchanges : editsOf src.toList (first :: effects) =
      edits ++ (⟨t.start, t.start + utf8Width (d :: cut), text⟩ ::
        effects.filterMap Effect.edit) := by
    rw [editsOf, List.filterMap_cons_some hedit, hsrc, hedits]
  have hsplit : src.toList = (pre ++ d :: (cut ++ kept)) ++ post := by
    simp [hsrc]
  rw [hchanges] at hordered ⊢
  -- the later edits apply to what follows the kept text
  rw [hsplit] at hordered
  obtain ⟨rest, hrest⟩ : ∃ rest, Edit.Splices (utf8Width (pre ++ d :: (cut ++ kept))) post
      (effects.filterMap Effect.edit) rest :=
    ⟨_, Edit.splices_applyFrom (hordered.of_sublist
      ((List.sublist_cons_self _ _).trans (List.sublist_append_right _ _))) hle⟩
  have hnone : Edit.Splices (t.start + utf8Width (d :: cut)) kept [] kept := .done
  have hkept : Edit.Splices (t.start + utf8Width (d :: cut)) (kept ++ post)
      (effects.filterMap Effect.edit) (kept ++ rest) := by
    refine hnone.append hrest ?_
    rw [hstart]
    simp only [utf8Width_append, utf8Width_cons]
    omega
  have hcut : Edit.Splices (0 + utf8Width pre) ([] ++ (d :: cut ++ (kept ++ post)))
      (⟨t.start, t.start + utf8Width (d :: cut), text⟩ :: effects.filterMap Effect.edit)
      ([] ++ (text.toList ++ (kept ++ rest))) :=
    .edit (by rw [utf8Width_nil, hstart, Nat.zero_add, Nat.add_zero]) rfl hkept
  refine ⟨lead, rest, ?_⟩
  rw [hsrc, Edit.apply]
  exact (hlead.append hcut rfl).applyFrom_eq

/-- An anonymous function or class that is exported as the default stands in the body as the value
of an assignment. Between its closing brace and a bracket or backtick on the next line there is only
the line break, so that the assignment goes on there: no semicolon parts them. -/
theorem ofSource_anonymousDefault {e d : Token} {decl us : List Token} {pre post : List Char}
    {c : Char} {m : LinkedModule} (htokens : tokenize src = .ok (e :: d :: (decl ++ us)))
    (he : e.isWord "export" = true) (hd : d.isWord "default" = true)
    (hdecl : Statement.AnonymousDeclaration decl)
    (hkeys : ∀ t ∈ decl, Statement.isKeyword t = false)
    (hsrc : src.toList = pre ++ '\n' :: c :: post) (hpre : utf8Width pre = lastStop decl 0)
    (hc : c ∈ ['(', '[', '`']) (h : (ofSource config path src).result = .ok m) :
    ∃ before cut declaration lead rest manifest, pre = before ++ (cut ++ declaration) ∧
      utf8Width before = e.start ∧ utf8Width (before ++ cut) = d.stop ∧
      declaration.getLast? = some '\x7d' ∧
      m.code = wrap path (lead ++ ((defaultLocal ++ " =").toList ++
        (declaration ++ '\n' :: c :: rest))) manifest := by
  obtain ⟨effects, heffectsOf, rfl⟩ := result_ofSource_eq_ok_iff.mp h
  obtain ⟨tokens, htokens', -, heffects⟩ := result_effectsOf_eq_ok_iff.mp heffectsOf
  rw [htokens] at htokens'
  obtain rfl := Except.ok.inj htokens'
  have hordered := ordered_editsOf htokens heffects
  have hstarts : Statement.startsForm false e (d :: (decl ++ us)) = true := by
    have hcolon : Statement.startsPunct ":" (d :: (decl ++ us)) = false :=
      Token.isPunct_eq_false_of_isWord hd ":"
    simp [Statement.startsForm, Statement.isKeyword, he, hcolon]
  rw [Statement.outline_cons_of_form hstarts (hdecl.readForm he hd us)] at heffects
  obtain ⟨first, effects, hfirst, hlater, rfl⟩ := List.forall₂_cons_left_iff.mp heffects
  have hedit : first.edit = some ⟨e.start, d.stop, defaultLocal ++ " ="⟩ := by
    cases hfirst
    rfl
  obtain ⟨before, cut, declaration, rfl, hbefore, hcut, hclosing⟩ :=
    exists_default_split htokens he hdecl hsrc hpre
  rw [utf8Width_append, hbefore] at hcut
  rw [← hcut] at hedit
  -- the line break and what follows it are kept
  obtain ⟨lead, rest, happly⟩ := @exists_apply_of_kept _ _ _ before cut (declaration ++ ['\n', c])
    post 'e' _ _ _ htokens (by simp [hsrc]) hbefore.symm (by decide) hedit hordered fun x hx => by
      have hbehind := le_start_of_mem_edits htokens hdecl hkeys hsrc hpre hc hlater hx
      simpa using hbehind
  refine ⟨before, 'e' :: cut, declaration, lead, rest, Manifest.ofEffects (first :: effects), rfl,
    hbefore, by rw [utf8Width_append, hbefore, hcut], hclosing, ?_⟩
  rw [ofEffects, happly]
  simp

/-- An asynchronous generator in front of an array. -/
theorem ofSource_anonymousDefault_generator :
    ∃ before cut declaration lead rest manifest m,
      "export default async function* (a) \x7b b \x7d".toList = before ++ (cut ++ declaration) ∧
      utf8Width before = 0 ∧ utf8Width (before ++ cut) = 14 ∧
      declaration.getLast? = some '\x7d' ∧
      (ofSource {} ⟨"a.mjs", by decide⟩
        "export default async function* (a) \x7b b \x7d\n[c]").result = .ok m ∧
      m.code = wrap ⟨"a.mjs", by decide⟩ (lead ++ ((defaultLocal ++ " =").toList ++
        (declaration ++ '\n' :: '[' :: rest))) manifest := by
  have htokens : tokenize "export default async function* (a) \x7b b \x7d\n[c]" = .ok (
      ⟨.ident, 0, "export"⟩ :: ⟨.ident, 7, "default"⟩ :: ((
        [⟨.ident, 15, "async"⟩] ++ ⟨.ident, 21, "function"⟩ :: ([⟨.punct, 29, "*"⟩] ++ (
          (⟨.punct, 31, "("⟩ :: ([⟨.ident, 32, "a"⟩] ++ [⟨.punct, 33, ")"⟩])) ++
          (⟨.punct, 35, "\x7b"⟩ :: ([⟨.ident, 37, "b"⟩] ++ [⟨.punct, 39, "\x7d"⟩]))))) ++
        [⟨.punct, 41, "["⟩, ⟨.ident, 42, "c"⟩, ⟨.punct, 43, "]"⟩])) := by
    decide +kernel
  obtain ⟨m, hm⟩ := exists_eq_ok_of_toBool (x := (ofSource {} ⟨"a.mjs", by decide⟩
    "export default async function* (a) \x7b b \x7d\n[c]").result) (by decide +kernel)
  obtain ⟨before, cut, declaration, lead, rest, manifest, hsplit, hbefore, hcut, hlast, hcode⟩ :=
    @ofSource_anonymousDefault _ _ _ _ _ _ _
      "export default async function* (a) \x7b b \x7d".toList ['c', ']'] '[' m htokens rfl rfl
      (.ofFunction (.inr ⟨_, rfl, rfl⟩) rfl (.inr ⟨_, rfl, rfl⟩) (.mk rfl (by decide) rfl)
        (.mk rfl (by decide) rfl))
      (by decide) (by decide) (by decide +kernel) (by decide) hm
  exact ⟨before, cut, declaration, lead, rest, manifest, m, hsplit, hbefore, hcut, hlast, hm,
    hcode⟩

/-- An anonymous function in front of an expression in parentheses becomes a call. -/
theorem ofSource_anonymousDefault_call :
    tokenize "export default function () \x7b\x7d\n(c)" = .ok [⟨.ident, 0, "export"⟩,
      ⟨.ident, 7, "default"⟩, ⟨.ident, 15, "function"⟩, ⟨.punct, 24, "("⟩, ⟨.punct, 25, ")"⟩,
      ⟨.punct, 27, "\x7b"⟩, ⟨.punct, 28, "\x7d"⟩, ⟨.punct, 30, "("⟩, ⟨.ident, 31, "c"⟩,
      ⟨.punct, 32, ")"⟩] ∧
    (ofSource {} ⟨"a.mjs", by decide⟩
        "export default function () \x7b\x7d\n(c)").result.toOption.map LinkedModule.code =
      some (opening ⟨"a.mjs", by decide⟩ ++ "__DEFAULT_EXPORT__ = function () \x7b\x7d\n(c)\n" ++
        "  __MODS__[\"a.mjs\"] = \x7b default: __DEFAULT_EXPORT__ \x7d;\n\x7d)();\n") := by
  constructor <;> decide +kernel

end LinkedModule

end EdgeBundle
