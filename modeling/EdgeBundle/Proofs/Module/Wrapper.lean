import EdgeBundle.Proofs.Module.Published
import EdgeBundle.Proofs.Token.Enclosed
import Mathlib.Data.List.Chain

/-!
# The function around a module

A linked module is a function around the body of the module. Whatever the path in the comment before
the function is, and whatever brackets or comments the body leaves open, the code has the tokens of
the function, with those of the body and of the registration inside.

## Main definitions

* `ClosesNoComment`: a text that is no end of a block comment.
* `LinkedModule.openingTokens`, `LinkedModule.closingTokens`: tokens around a body.

## Main statements

* `LinkedModule.exists_scans_opening`, `LinkedModule.exists_scans_closing`: text around a body.
* `LinkedModule.ofSource_isolated`: the tokens of every linked module.
-/

namespace EdgeBundle

open Lexer

/-! ## Titles -/

/-- No slash follows an asterisk. -/
def ClosesNoComment (cs : List Char) : Prop :=
  cs.IsChain fun c d => ¬ (c = '*' ∧ d = '/')

instance (cs : List Char) : Decidable (ClosesNoComment cs) :=
  inferInstanceAs (Decidable (cs.IsChain _))

namespace ClosesNoComment

variable {cs ds : List Char}

theorem not_infix (h : ClosesNoComment cs) : ¬ ['*', '/'] <:+: cs := by
  intro hinfix
  have hpair := h.infix hinfix
  simp at hpair

/-- The first character stays the same where ends of comments are replaced. -/
theorem head?_go (cs : List Char) :
    (replaceText.go ['*', '/'] ['*', '\\', '/'] 0 cs).head? = cs.head? := by
  cases cs with
  | nil => rfl
  | cons c cs =>
    rw [replaceText.go]
    split
    next h =>
      obtain ⟨rest, hrest⟩ := List.isPrefixOf_iff_prefix.mp h.1
      rw [(List.cons.inj hrest).1]
      rfl
    next => rfl

/-- A backslash parts the two characters that end a comment. -/
theorem replaceText_go (pending : Nat) (cs : List Char) :
    ClosesNoComment (replaceText.go ['*', '/'] ['*', '\\', '/'] pending cs) := by
  induction cs generalizing pending with
  | nil => exact .nil
  | cons c cs ih =>
    cases pending with
    | succ pending => exact ih pending
    | zero =>
      rw [replaceText.go]
      split
      -- an end of a comment is put in with a backslash, and what follows is no part of it
      next => exact .cons_cons (by decide) (.cons_cons (by decide)
        (List.isChain_cons.mpr ⟨fun d _ hd => absurd hd.1 (by decide), ih _⟩))
      next hnot =>
        refine List.isChain_cons.mpr ⟨fun d hd hends => hnot ?_, ih 0⟩
        -- the next character was the same before, so an end would have been found here
        obtain ⟨rfl, rfl⟩ := hends
        rw [head?_go] at hd
        obtain ⟨rest, rfl⟩ := List.head?_eq_some_iff.mp hd
        exact ⟨rfl, by decide⟩

/-- Texts may be joined where no slash would follow an asterisk. -/
theorem append (h : ClosesNoComment cs) (h' : ClosesNoComment ds)
    (hjoin : cs.getLast? ≠ some '*' ∨ ds.head? ≠ some '/') : ClosesNoComment (cs ++ ds) := by
  refine List.isChain_append.mpr ⟨h, h', fun c hc d hd hends => ?_⟩
  obtain ⟨rfl, rfl⟩ := hends
  rcases hjoin with hlast | hhead
  · exact hlast hc
  · exact hhead hd

end ClosesNoComment

namespace LinkedModule

/-! ## Text around a body -/

/-- Tokens before a body, without their places. -/
def openingTokens : List Token :=
  [⟨.punct, 0, "("⟩, ⟨.ident, 0, "function"⟩, ⟨.punct, 0, "("⟩, ⟨.punct, 0, ")"⟩,
    ⟨.punct, 0, "\x7b"⟩, ⟨.ident, 0, "let"⟩, ⟨.ident, 0, "__DEFAULT_EXPORT__"⟩, ⟨.punct, 0, ";"⟩]

/-- Tokens after a body and its registration, without their places. -/
def closingTokens : List Token :=
  [⟨.punct, 0, "\x7d"⟩, ⟨.punct, 0, ")"⟩, ⟨.punct, 0, "("⟩, ⟨.punct, 0, ")"⟩, ⟨.punct, 0, ";"⟩]

/-- The lines between the comment and a body. -/
def openingLines : String :=
  "\n(function() \x7b\n  let __DEFAULT_EXPORT__;\n"

/-- The function is opened by the same tokens wherever it stands, and a body in it finds what it
would find at the start of a source. -/
theorem exists_scans_openingLines (offset : Nat) :
    ∃ opened, opened.map Token.unplaced = openingTokens ∧
      Alike {} (Context.after {} opened) ∧ Scans {} offset openingLines.toList opened := by
  have htokens : tokenize openingLines = .ok [⟨.punct, 1, "("⟩, ⟨.ident, 2, "function"⟩,
      ⟨.punct, 10, "("⟩, ⟨.punct, 11, ")"⟩, ⟨.punct, 13, "\x7b"⟩, ⟨.ident, 17, "let"⟩,
      ⟨.ident, 21, "__DEFAULT_EXPORT__"⟩, ⟨.punct, 39, ";"⟩] := by decide +kernel
  have hbang : hashbangLength openingLines.toList = 0 := by decide
  have hrun := tokenize_eq_ok_iff.mp htokens
  rw [hbang, List.take_zero, List.drop_zero] at hrun
  obtain ⟨opened, hopened, hafter, hsame⟩ := hrun.exists_of_alike (.refl {}) offset
  refine ⟨opened, hsame, .trans ?_ hafter, hopened⟩
  -- the brackets that are open are those that count as open where none are
  refine ⟨⟨rfl, rfl, rfl⟩, fun i => ?_, fun i => ?_⟩
  · cases i <;> rfl
  · cases i <;> rfl

/-- The comment before a function is closed where the function starts, whatever the path is. -/
theorem exists_opening_eq (path : RelPath) :
    ∃ comment, (opening path).toList = comment ++ openingLines.toList ∧
      ∀ rest, GapPiece rest comment := by
  have htitle : ClosesNoComment (replaceText ['*', '/'] ['*', '\\', '/'] path.chars) :=
    .replaceText_go 0 _
  generalize htext : replaceText ['*', '/'] ['*', '\\', '/'] path.chars = title at htitle
  -- nor does the asterisk that closes the comment make an end with the text before it
  have hbody : ClosesNoComment (" Module: ".toList ++ title ++ " ".toList ++ ['*']) :=
    ((ClosesNoComment.append (by decide) htitle (.inl (by decide))).append (by decide)
      (.inr (by decide))).append (by decide) (.inr (by decide))
  refine ⟨'/' :: '*' :: (" Module: ".toList ++ title ++ " ".toList ++ ['*', '/']), ?_,
    fun rest => .blockComment hbody.not_infix⟩
  unfold opening
  rw [htext]
  simp [openingLines, defaultLocal]

/-- A function is opened whatever the path in the comment before it is. -/
theorem exists_scans_opening (path : RelPath) :
    ∃ opened, opened.map Token.unplaced = openingTokens ∧ Alike {} (Context.after {} opened) ∧
      ∀ rest ts, Scans (Context.after {} opened) (opening path).utf8ByteSize rest ts →
        Scans {} 0 ((opening path).toList ++ rest) (opened ++ ts) := by
  obtain ⟨comment, htext, hcomment⟩ := exists_opening_eq path
  obtain ⟨opened, hopened, halike, hrun⟩ := exists_scans_openingLines (0 + utf8Width comment)
  refine ⟨opened, hopened, halike, fun rest ts hrest => ?_⟩
  have hwidth : (opening path).utf8ByteSize =
      0 + utf8Width comment + utf8Width openingLines.toList := by
    rw [← utf8Width_toList, htext, utf8Width_append, Nat.zero_add]
  rw [htext, List.append_assoc]
  exact .gapPiece_append (hcomment _)
    (hrun.append_line (fun _ => .inr (by decide)) (hwidth ▸ hrest))

/-- A function is closed where no substitution is open. -/
theorem exists_scans_closing (offset : Nat) :
    ∃ closed, closed.map Token.unplaced = closingTokens ∧
      ∀ ctx : Context, ctx.closesSubstitution = false →
        Scans ctx offset "\x7d)();\n".toList closed := by
  have htext : "\x7d)();\n".toList = ['\x7d', ')', '(', ')', ';', '\n'] := rfl
  have hother {c : Char} (hc : c ∈ ['(', ')']) {ctx : Context} :
      c = '\x7d' → ctx.closesSubstitution = false := by
    rintro rfl
    exact absurd hc (by decide)
  rw [htext]
  refine ⟨[⟨.punct, offset, "\x7d"⟩, ⟨.punct, offset + 1, ")"⟩, ⟨.punct, offset + 2, "("⟩,
    ⟨.punct, offset + 3, ")"⟩, ⟨.punct, offset + 4, ";"⟩], rfl, fun ctx h => ?_⟩
  exact .bracket (by simp) (fun _ => h) rfl (.bracket (by simp) (hother (by simp)) rfl
    (.bracket (by simp) (hother (by simp)) rfl (.bracket (by simp) (hother (by simp)) rfl
      (.punct (by simp) rfl (.gap (.blank rfl) .done)))))

/-- What parts a body from the registration. A comment on the last line of the body does not go on
behind it. -/
def lineBreak (body : List Char) : List Char :=
  if body.getLast? = some '\n' then [] else ['\n']

theorem partedByLine_lineBreak (body rest : List Char) :
    PartedByLine body (lineBreak body ++ rest) := by
  intro
  unfold lineBreak
  split
  next hlast => exact .inr hlast
  next => exact .inl (.inr rfl)

theorem gap_lineBreak (body rest : List Char) : Gap rest (lineBreak body) := by
  unfold lineBreak
  split
  · exact .nil
  · exact .cons (.blank (by decide)) .nil

theorem toList_wrap (path : RelPath) (body : List Char) (manifest : Manifest) :
    (wrap path body manifest).toList = (opening path).toList ++ (body ++ (lineBreak body ++
      ((registration path manifest).toList ++ "\x7d)();\n".toList))) := by
  rw [wrap, lineBreak]
  split <;> simp

/-! ## Linked modules -/

/-- The function around a body without open template literals has the tokens of the body inside. -/
theorem exists_tokenize_wrap {path : RelPath} {body : List Char} {manifest : Manifest}
    {ts : List Token} (hmanifest : manifest.IsReadable)
    (h : tokenize (String.ofList body) = .ok ts) (hbang : ¬ ['#', '!'] <+: body)
    (hclosed : openTemplates ts = 0) :
    ∃ all registered, tokenize (wrap path body manifest) = .ok all ∧
      all.map Token.unplaced =
        openingTokens ++ ts.map Token.unplaced ++ registered ++ closingTokens ∧
      IsRegistration path manifest registered := by
  obtain ⟨opened, hopened, halike, hopening⟩ := exists_scans_opening path
  obtain ⟨moved, hmoved, hcloses, hbody⟩ :=
    exists_enclosed h hbang hclosed halike (opening path).utf8ByteSize
  obtain ⟨registered, hregistered, hregistration⟩ := exists_scans_registration hmanifest path
    ((opening path).utf8ByteSize + utf8Width body + utf8Width (lineBreak body))
  obtain ⟨closed, hclosing, hend⟩ := exists_scans_closing ((opening path).utf8ByteSize +
    utf8Width body + utf8Width (lineBreak body) + (registration path manifest).utf8ByteSize)
  -- the registration leaves the braces as the body does
  have hafter := hregistration ((Context.after {} opened).after moved) _ closed fun ctx hctx =>
    hend ctx (by rw [Context.closesSubstitution, hctx]; exact hcloses)
  have hrun := hopening _ _ (hbody _ _ (partedByLine_lineBreak body _)
    (.gap_append (gap_lineBreak body _) hafter))
  rw [← toList_wrap] at hrun
  -- the code starts with the comment
  have hline : hashbangLength (wrap path body manifest).toList = 0 := by
    rw [hashbangLength_eq, if_neg]
    rw [toList_wrap]
    unfold opening
    simp
  refine ⟨opened ++ (moved ++ (registered ++ closed)), registered.map Token.unplaced, ?_, ?_,
    hregistered⟩
  · rw [tokenize_eq_ok_iff, hline, List.take_zero, List.drop_zero]
    exact hrun
  · simp only [List.map_append, hopened, hmoved, hclosing, List.append_assoc]

/-- A linked module is isolated in its function. If the body does not start like a hashbang line,
and is accepted and leaves no template literal open, then the code is accepted. It has the tokens
that open the function, exactly those of the body, those of the registration if anything is
published, and those that close the function, whatever the path is. -/
theorem ofSource_isolated {config : Config} {path : RelPath} {src : String} {m : LinkedModule}
    (h : (ofSource config path src).result = .ok m) :
    ∃ effects body, (effectsOf config path src).result = .ok effects ∧
      body = Edit.apply (editsOf src.toList effects) src.toList ∧
      m.code = wrap path body (Manifest.ofEffects effects) ∧
      ∀ ts, tokenize (String.ofList body) = .ok ts → ¬ ['#', '!'] <+: body →
        openTemplates ts = 0 →
        ∃ all registered, tokenize m.code = .ok all ∧
          all.map Token.unplaced =
            openingTokens ++ ts.map Token.unplaced ++ registered ++ closingTokens ∧
          IsRegistration path (Manifest.ofEffects effects) registered := by
  obtain ⟨effects, heffects, rfl⟩ := result_ofSource_eq_ok_iff.mp h
  refine ⟨effects, _, heffects, rfl, rfl, fun ts htokens hbang hclosed => ?_⟩
  exact exists_tokenize_wrap (isReadable_of_effects heffects) htokens hbang hclosed

/-- A path that would end the comment, and a body with an open parenthesis and with a comment on its
last line. -/
theorem ofSource_isolated_unclosed :
    ∃ m all, (ofSource {} ⟨"a*/b.mjs", by decide⟩ "export const x = (1; // \x7d").result = .ok m ∧
      tokenize m.code = .ok all ∧
      all.map Token.unplaced = openingTokens ++ [⟨.ident, 0, "const"⟩, ⟨.ident, 0, "x"⟩,
        ⟨.punct, 0, "="⟩, ⟨.punct, 0, "("⟩, ⟨.number, 0, "1"⟩, ⟨.punct, 0, ";"⟩] ++
          registrationTokens ⟨"a*/b.mjs", by decide⟩ [⟨.ident, 0, "x"⟩] ++ closingTokens := by
  have hok : (effectsOf {} ⟨"a*/b.mjs", by decide⟩
      "export const x = (1; // \x7d").result.toOption =
        some [{ edit := some ⟨0, 7, ""⟩, entries := [("x", "x")] }] := by decide +kernel
  have htokens : tokenize (String.ofList "const x = (1; // \x7d".toList) =
      .ok [⟨.ident, 0, "const"⟩, ⟨.ident, 6, "x"⟩, ⟨.punct, 8, "="⟩, ⟨.punct, 10, "("⟩,
        ⟨.number, 11, "1"⟩, ⟨.punct, 12, ";"⟩] := by decide +kernel
  have hpublished : tokenize ("\x7b " ++ commaList ["x"] ++ " \x7d") =
      .ok [⟨.punct, 0, "\x7b"⟩, ⟨.ident, 2, "x"⟩, ⟨.punct, 4, "\x7d"⟩] := by decide +kernel
  cases hm : (ofSource {} ⟨"a*/b.mjs", by decide⟩ "export const x = (1; // \x7d").result with
  | error e =>
    have hlinks : (ofSource {} ⟨"a*/b.mjs", by decide⟩
        "export const x = (1; // \x7d").result.toBool = true := by decide +kernel
    rw [hm] at hlinks
    cases hlinks
  | ok m =>
    obtain ⟨effects, body, heffects, hbody, -, hall⟩ := ofSource_isolated hm
    rw [heffects] at hok
    obtain rfl := Option.some.inj hok
    have hsame : body = "const x = (1; // \x7d".toList := by
      rw [hbody]
      decide +kernel
    rw [hsame] at hall
    obtain ⟨all, registered, hcode, htexts, hregistered⟩ := hall _ htokens (by decide) (by decide)
    obtain ⟨object, members, hobject, hinner, rfl⟩ := hregistered.exists_object rfl
    obtain rfl := Except.ok.inj (hpublished.symm.trans hobject)
    have hmembers : [⟨.ident, 0, "x"⟩] ++ [⟨.punct, 0, "\x7d"⟩] =
        members ++ [⟨.punct, 0, "\x7d"⟩] := (List.cons.inj hinner).2
    obtain rfl := List.append_cancel_right hmembers
    exact ⟨m, all, rfl, hcode, htexts⟩

end LinkedModule

end EdgeBundle
