import EdgeBundle.Proofs.Patch.Guard
import EdgeBundle.Proofs.Token.Frame
import EdgeBundle.Proofs.Token.Semicolon

/-!
# Brackets around the guarded call

The guard is put around the text that the anchor takes for the call, which ends at the first closing
brace, parenthesis and semicolon. Where these end the call, the brackets of its tokens are nested,
and the patched text has the tokens of the source with those of the guard around them. Where they
end something inside the call, the text that is taken has open brackets, and the guard ends inside
the call.

## Main definitions

* `Fills`: tokens between two places of a source.
* `CallTokens`: a source with the tokens of its call.
* `guardTokens`: the tokens of the head of the guard.

## Main statements

* `CallTokens.nested_iff`: whether the text of the call has nested brackets on its own.
* `CallTokens.exists_guarded`: the tokens of the source once the call is guarded.
* `guardServe_nested`: both for the first patch where it applies.
-/

namespace EdgeBundle.Patch

open Lexer Pattern

/-! ## Tokens of the call -/

/-- The first token starts at the one place and the last stops at the other. -/
structure Fills (ts : List Token) (start stop : Nat) : Prop where
  /-- Where the first starts. -/
  head_start : ts.head?.map Token.start = some start
  /-- Where the last stops. -/
  last_stop : ts.getLast?.map Token.stop = some stop

namespace Fills

variable {ts : List Token} {start stop : Nat}

theorem exists_cons (h : Fills ts start stop) : ∃ t us, ts = t :: us ∧ t.start = start := by
  cases ts with
  | nil => cases h.head_start
  | cons t us => exact ⟨t, us, rfl, Option.some.inj h.head_start⟩

theorem exists_concat (h : Fills ts start stop) : ∃ us t, ts = us ++ [t] ∧ t.stop = stop := by
  rcases List.eq_nil_or_concat ts with rfl | ⟨us, t, rfl⟩
  · cases h.head_start
  · have hstop := h.last_stop
    rw [List.concat_eq_append, List.getLast?_concat] at hstop
    exact ⟨us, t, List.concat_eq_append, Option.some.inj hstop⟩

end Fills

/-- A source with the call between `before` and `after`, and its tokens with those of the call
between `earlier` and `later`. -/
structure CallTokens (src : String) (before call after : List Char)
    (earlier mid later : List Token) : Prop where
  /-- The tokens of the source. -/
  tokens : tokenize src = .ok (earlier ++ (mid ++ later))
  /-- Its text. -/
  text : src.toList = before ++ (call ++ after)
  /-- The call has the form of one. -/
  isCall : ServerCall call
  /-- The tokens of the call are those of its text. -/
  fills : Fills mid (utf8Width before) (utf8Width (before ++ call))

/-- Runs of a call with a source around it. -/
structure CallRuns (before call after : List Char) (earlier mid later : List Token) : Prop where
  /-- The last token is the semicolon. -/
  exists_semicolon : ∃ body words, call = body ++ [';'] ∧
    mid = words ++ [⟨.punct, utf8Width (before ++ body), ";"⟩]
  /-- The tokens before the call are read before the head of the guard, too. -/
  reads_earlier : ∀ tail ts, Scans (Context.after {} earlier) (utf8Width before) ('i' :: tail) ts →
    tokenize (String.ofList (before ++ 'i' :: tail)) = .ok (earlier ++ ts)
  /-- The call is read as its tokens. -/
  scans_call : Scans (Context.after {} earlier) (utf8Width before) call mid
  /-- What comes after it is read as the others. -/
  scans_after :
    Scans ((Context.after {} earlier).after mid) (utf8Width (before ++ call)) after later

theorem CallTokens.runs {src : String} {before call after : List Char}
    {earlier mid later : List Token} (h : CallTokens src before call after earlier mid later) :
    CallRuns before call after earlier mid later := by
  obtain ⟨tail, hcall⟩ := h.isCall.exists_cons
  obtain ⟨body, hbody⟩ := h.isCall.exists_append
  obtain ⟨t, rest, hmid, hstart⟩ := h.fills.exists_cons
  obtain ⟨words, last, hwords, hstop⟩ := h.fills.exists_concat
  have htokens := h.tokens
  have htext := h.text
  -- the token that ends the call is its semicolon
  have hsemicolon : last = ⟨.punct, utf8Width (before ++ body), ";"⟩ := by
    have hmem : last ∈ earlier ++ (mid ++ later) := by simp [hwords]
    refine @eq_semicolon_of_stop _ _ _ (before ++ body) after htokens hmem ?_ ?_
    · rw [htext, hbody, List.append_assoc, List.append_assoc, List.singleton_append]
    · rw [hstop, hbody, ← List.append_assoc, utf8Width_append]
      rfl
  have hends : EndsAlike 's' 'i' := by decide
  obtain ⟨hcut, hreads⟩ := exists_cut_of_tokenize (by rw [htokens, hmid]; rfl)
    (by rw [htext, hcall]; rfl) hstart (by decide)
  have hrun : Scans (Context.after {} earlier) (utf8Width before) (body ++ ';' :: after)
      (words ++ ⟨.punct, utf8Width before + utf8Width body, ";"⟩ :: later) := by
    have hcs : 's' :: 'e' :: tail ++ after = body ++ ';' :: after := by
      rw [← hcall, hbody, List.append_assoc, List.singleton_append]
    have hts : t :: rest ++ later =
        words ++ ⟨.punct, utf8Width before + utf8Width body, ";"⟩ :: later := by
      rw [← hmid, hwords, hsemicolon, List.append_assoc, List.singleton_append, utf8Width_append]
    rw [← hcs, ← hts]
    exact hcut
  obtain ⟨hafter, hcalls⟩ := hrun.exists_cut_semicolon
  rw [hsemicolon] at hwords
  refine ⟨⟨body, words, hbody, hwords⟩, fun tail ts hscan => ?_, ?_, ?_⟩
  · exact hreads 'i' tail ts hends (by decide) hscan
  · rw [hbody, hwords, utf8Width_append]
    exact hcalls [] [] .done
  · rw [hbody, hwords, ← List.append_assoc, utf8Width_append (before ++ body), utf8Width_append]
    exact hafter

/-! ## Brackets of the call -/

/-- A text that starts as the call does has no hashbang line. -/
theorem ServerCall.tokenize_eq_ok_iff {call : List Char} (h : ServerCall call) {ts : List Token} :
    tokenize (String.ofList call) = .ok ts ↔ Scans {} 0 call ts := by
  obtain ⟨tail, rfl⟩ := h.exists_cons
  rw [Lexer.tokenize_eq_ok_iff, String.toList_ofList]
  exact Iff.rfl

/-- The text of the call has nested brackets on its own exactly if its tokens have and they go on
with template literals of their own only. -/
theorem CallTokens.nested_iff {src : String} {before call after : List Char}
    {earlier mid later : List Token} (h : CallTokens src before call after earlier mid later) :
    NestedText call ↔
      Nested mid ∧ (ownTemplates 0 mid).isSome = true := by
  have hscan := h.runs.scans_call
  obtain ⟨tail, hcall⟩ := h.isCall.exists_cons
  -- the call is moved from a source of its own to its place, and back
  constructor
  · rintro ⟨ts, hts, hnested⟩
    have hrun := h.isCall.tokenize_eq_ok_iff.mp hts
    have hown : ownTemplates 0 ts = some _ := hrun.ownTemplates_eq
    rw [hcall] at hrun hscan
    obtain ⟨moved, hmoved, hmove, -⟩ := hrun.exists_of_nested (by decide) (by decide) hnested hown
      (Context.after {} earlier) (utf8Width before)
    obtain rfl := hmoved.unique hscan
    have hsame := hmove.unplaced_eq
    exact ⟨(Nested.congr hsame).mpr hnested, by rw [ownTemplates_congr hsame, hown]; rfl⟩
  · rintro ⟨hnested, hown⟩
    obtain ⟨count, hown⟩ := Option.isSome_iff_exists.mp hown
    rw [hcall] at hscan
    obtain ⟨moved, hmoved, hmove, -⟩ :=
      hscan.exists_of_nested (by decide) (by decide) hnested hown {} 0
    rw [← hcall] at hmoved
    exact ⟨moved, h.isCall.tokenize_eq_ok_iff.mpr hmoved,
      (Nested.congr hmove.unplaced_eq).mpr hnested⟩

/-! ## The guard around the call -/

/-- Tokens of the head of the guard. -/
def guardTokens (offset : Nat) : List Token :=
  [⟨.ident, offset, "if"⟩, ⟨.punct, offset + 3, "("⟩, ⟨.punct, offset + 4, "!"⟩,
    ⟨.ident, offset + 5, "globalThis"⟩, ⟨.punct, offset + 15, "."⟩,
    ⟨.ident, offset + 16, platformFlag⟩, ⟨.punct, offset + 33, ")"⟩,
    ⟨.punct, offset + 35, "\x7b"⟩]

/-- The head of the guard is read as its tokens. -/
theorem scans_guardHead {ctx : Context} {offset : Nat} {rest : List Char} {ts : List Token}
    (h : Scans (ctx.after (guardTokens offset)) (offset + 39) rest ts) :
    Scans ctx offset (guardHead.toList ++ rest) (guardTokens offset ++ ts) := by
  have hif : IsToken .ident "if" := by decide +kernel
  have hflag : IsToken .ident platformFlag := by decide +kernel
  have htext : guardHead.toList ++ rest = "if".toList ++ ' ' :: '(' :: '!' :: 'g' ::
      ("lobalThis".toList ++ '.' :: (platformFlag.toList ++
        ')' :: ' ' :: '\x7b' :: '\n' :: ' ' :: ' ' :: rest)) := rfl
  -- a point after a word is no part of it
  have hglobal (ctx : Context) (cs : List Char) :
      LexemeAt ctx 'g' ("lobalThis".toList ++ '.' :: cs) ⟨some .ident, 9⟩ := .ident (.inr rfl)
  have hnot (ctx : Context) (cs : List Char) : StartsPunct ctx '!' cs := by
    constructor <;> simp [isBlank, isIdentStart]
  have hpoint (ctx : Context) (cs : List Char) :
      StartsPunct ctx '.' (platformFlag.toList ++ cs) := by
    constructor <;> simp [isBlank, isIdentStart, platformFlag]
  rw [htext]
  refine hif.scans (by decide) (endsWord_cons (by decide)) (.blank ?_)
  refine .bracket (by decide) (absurd · (by decide)) rfl
    (.mark (hnot _ _) rfl rfl (.read (hglobal _ _) ?_))
  refine .mark (hpoint _ _) rfl rfl ?_
  refine hflag.scans (by decide) (endsWord_cons (by decide)) ?_
  refine .bracket (by decide) (absurd · (by decide)) rfl (.blank ?_)
  refine .bracket (by decide) (absurd · (by decide)) rfl ?_
  exact .gap (.blank rfl) (.blank (.blank h))

/-- What the context is after the head of the guard. -/
theorem after_guardTokens (ctx : Context) (offset : Nat) :
    (ctx.after (guardTokens offset)).braces = .block :: ctx.braces ∧
      (ctx.after (guardTokens offset)).parens = ctx.parens :=
  ⟨rfl, rfl⟩

/-- Tokens of the guard around those of a call. -/
def guardedTokens (earlier mid later : List Token) : List Token :=
  earlier ++ (guardTokens 0 ++ (mid ++ (⟨.punct, 0, "\x7d"⟩ :: later)))

/-- A guard around nested tokens leaves the brackets around it nested or not. -/
theorem nested_guardedTokens_iff {earlier mid later : List Token} (hmid : Nested mid) :
    Nested (guardedTokens earlier mid later) ↔ Nested (earlier ++ (mid ++ later)) := by
  have hguard : Nested (guardTokens 0 ++ (mid ++ [⟨.punct, 0, "\x7d"⟩])) := by
    refine hmid.append_iff.mpr ?_
    decide
  have hassoc : guardedTokens earlier mid later =
      earlier ++ ((guardTokens 0 ++ (mid ++ [⟨.punct, 0, "\x7d"⟩])) ++ later) := by
    simp [guardedTokens]
  rw [hassoc, hguard.append_iff, hmid.append_iff]

/-- After a semicolon the same comes next as after a closing brace. -/
theorem sameView_push (ctx ctx' : Context) (start start' : Nat) :
    SameView (ctx.push ⟨.punct, start, ";"⟩) (ctx'.push ⟨.punct, start', "\x7d"⟩) :=
  ⟨rfl, rfl, rfl⟩

/-- A nested part that ends with a semicolon is read inside a block, and what comes after it is read
after the block. -/
theorem scans_in_block {ctx ctx' : Context} {offset offset' stop : Nat} {c : Char}
    {cs body after : List Char} {mid words later : List Token}
    (hscan : Scans ctx offset (c :: cs) mid) (hafter : Scans (ctx.after mid) stop after later)
    (hbody : c :: cs = body ++ [';'])
    (hmid : mid = words ++ [⟨.punct, offset + utf8Width body, ";"⟩])
    (hc : isIdentStart c = true) (hawait : c ≠ 'a') (hnested : Nested mid)
    (hown : ownTemplates 0 mid = some 0) (hblock : ctx'.braces = .block :: ctx.braces)
    (hparens : ctx'.parens = ctx.parens) :
    ∃ ts, Scans ctx' offset' (body ++ ';' :: '\n' :: '\x7d' :: after) ts ∧
      ts.map Token.unplaced = (mid ++ ⟨.punct, 0, "\x7d"⟩ :: later).map Token.unplaced := by
  obtain ⟨moved, hrun, hmove, hframed⟩ :=
    hscan.exists_of_nested hc hawait hnested hown ctx' offset'
  obtain ⟨hbraces, hbraces', hparens₁, hparens'⟩ := hframed.closed
  have hsame := hmove.unplaced_eq
  have hlast : ctx.after mid = (ctx.after words).push ⟨.punct, offset + utf8Width body, ";"⟩ := by
    rw [hmid, Context.after, List.foldl_append]
    rfl
  rw [hmid] at hmove
  obtain ⟨init, start, rfl, hstart⟩ := hmove.exists_concat
  dsimp only at hrun hbraces hbraces' hparens₁ hparens' hstart
  obtain rfl : start = offset' + utf8Width body := by omega
  rw [hbody] at hrun
  obtain ⟨-, hreads⟩ := hrun.exists_cut_semicolon
  -- the context after the block is that after the part outside of it
  generalize ctx'.after (init ++ [⟨.punct, offset' + utf8Width body, ";"⟩]) = inner
    at hbraces' hparens' hreads
  have hview := sameView_push (ctx.after words) inner (offset + utf8Width body)
    (offset' + utf8Width body + 1 + 1)
  rw [← hlast] at hview
  have htail : ctx.braces = inner.braces.tail := by rw [hbraces', hblock, List.tail_cons]
  obtain ⟨moved, hlater, hmoved⟩ := hafter.exists_of_sameView hview (hbraces.trans htail)
    (hparens₁.trans (hparens.symm.trans hparens'.symm)) (offset' + utf8Width body + 1 + 1 + 1)
  have hnotClosing : inner.closesSubstitution = false := by
    rw [Context.closesSubstitution, hbraces', hblock]
    rfl
  refine ⟨_, hreads _ _ (.gap (.blank rfl)
    (.bracket (by decide) (fun _ => hnotClosing) rfl hlater)), ?_⟩
  rw [List.append_cons, List.map_append, hsame, List.map_cons, hmoved, List.map_append,
    List.map_cons]
  rfl

/-- If the tokens of the call are nested and leave no template literal open, the text with the call
guarded has the tokens of the source with those of the guard around them. -/
theorem CallTokens.exists_guarded {src : String} {before call after : List Char}
    {earlier mid later : List Token} (h : CallTokens src before call after earlier mid later)
    (hnested : Nested mid) (hown : ownTemplates 0 mid = some 0) :
    ∃ ts, tokenize (String.ofList
        (before ++ (guardHead.toList ++ (call ++ (guardEnd.toList ++ after))))) = .ok ts ∧
      ts.map Token.unplaced = (guardedTokens earlier mid later).map Token.unplaced := by
  obtain ⟨⟨body, words, hbody, hwords⟩, hreads, hscan, hafter⟩ := h.runs
  obtain ⟨tail, hcall⟩ := h.isCall.exists_cons
  generalize Context.after {} earlier = ctx at hreads hscan hafter
  obtain ⟨hblock, hparens⟩ := after_guardTokens ctx (utf8Width before)
  rw [utf8Width_append] at hwords
  rw [hcall] at hscan
  obtain ⟨ts, hrun, hsame⟩ := scans_in_block hscan hafter (hcall ▸ hbody) hwords (by decide)
    (by decide) hnested hown hblock hparens
  have htext : body ++ ';' :: '\n' :: '\x7d' :: after = call ++ (guardEnd.toList ++ after) := by
    rw [hbody, List.append_assoc]
    rfl
  rw [htext] at hrun
  refine ⟨_, hreads _ _ (scans_guardHead hrun), ?_⟩
  simp only [guardedTokens, List.map_append, hsame]
  rfl

/-- Where the first patch applies, it takes some text for the call. If that text is some of the
tokens, it has nested brackets on its own exactly if they are nested and go on with template
literals of their own only. If they leave none open, either, the patched text has the tokens of the
guard around them, and its brackets are nested if those of the source are. -/
theorem guardServe_nested {text out : List Char} {ts : List Token} {n : Nat}
    (h : tokenize (String.ofList text) = .ok ts)
    (happly : guardServe.apply text = (out, .applied n)) :
    ∃ before call after, Guards text before call after out ∧
      ∀ earlier mid later, ts = earlier ++ (mid ++ later) →
        Fills mid (utf8Width before) (utf8Width (before ++ call)) →
        (NestedText call ↔ Nested mid ∧ (ownTemplates 0 mid).isSome = true) ∧
        (Nested mid → ownTemplates 0 mid = some 0 →
          ∃ ps, tokenize (String.ofList out) = .ok ps ∧
            ps.map Token.unplaced = (guardedTokens earlier mid later).map Token.unplaced ∧
            (Nested ps ↔ Nested ts)) := by
  obtain ⟨-, before, call, after, hguards⟩ := guards_of_applied happly
  refine ⟨before, call, after, hguards, ?_⟩
  rintro earlier mid later rfl hfills
  have hcall : CallTokens (String.ofList text) before call after earlier mid later :=
    ⟨h, by rw [String.toList_ofList, hguards.text_eq], hguards.isCall, hfills⟩
  refine ⟨hcall.nested_iff, fun hnested hown => ?_⟩
  obtain ⟨ps, hps, hsame⟩ := hcall.exists_guarded hnested hown
  rw [hguards.out_eq]
  exact ⟨ps, hps, hsame, (Nested.congr hsame).trans (nested_guardedTokens_iff hnested)⟩

/-- A call whose options end with the call. -/
theorem guardServe_nested_fetch :
    ∃ text, text = "const nitroApp = useNitroApp();let _fetch = nitroApp.fetch;".toList ++
        "serve(\x7bfetch: _fetch\x7d);".toList ∧
      ∃ ts out before call after, tokenize (String.ofList text) = .ok ts ∧
        guardServe.apply text = (out, .applied 1) ∧ Guards text before call after out ∧
        NestedText call ∧ NestedText out := by
  have hsetUp : String.toList "const nitroApp = useNitroApp();let _fetch = nitroApp.fetch;" = _ :=
    String.toList_ofList
  have hserver : String.toList "serve(\x7bfetch: _fetch\x7d);" = _ := String.toList_ofList
  rw [hsetUp, hserver]
  refine ⟨_, rfl, ?_⟩
  generalize htext : (_ ++ _ : List Char) = text
  have h : tokenize (String.ofList text) = .ok
      ([⟨.ident, 0, "const"⟩, ⟨.ident, 6, "nitroApp"⟩, ⟨.punct, 15, "="⟩,
        ⟨.ident, 17, "useNitroApp"⟩, ⟨.punct, 28, "("⟩, ⟨.punct, 29, ")"⟩, ⟨.punct, 30, ";"⟩,
        ⟨.ident, 31, "let"⟩, ⟨.ident, 35, "_fetch"⟩, ⟨.punct, 42, "="⟩, ⟨.ident, 44, "nitroApp"⟩,
        ⟨.punct, 52, "."⟩, ⟨.ident, 53, "fetch"⟩, ⟨.punct, 58, ";"⟩] ++
      ([⟨.ident, 59, "serve"⟩, ⟨.punct, 64, "("⟩, ⟨.punct, 65, "\x7b"⟩, ⟨.ident, 66, "fetch"⟩,
        ⟨.punct, 71, ":"⟩, ⟨.ident, 73, "_fetch"⟩, ⟨.punct, 79, "\x7d"⟩, ⟨.punct, 80, ")"⟩,
        ⟨.punct, 81, ";"⟩] ++ [])) := by
    rw [tokenize_ofList, ← htext]
    decide +kernel
  have happly : guardServe.apply text = ((guardServe.apply text).1, .applied 1) := by
    rw [← htext]
    decide +kernel
  have hmatch : guardServe.matchesIn text = [⟨0, 82, [(2, 59, 82), (1, 0, 59)]⟩] := by
    rw [← htext]
    decide +kernel
  obtain ⟨before, call, after, hguards, hbrackets⟩ := guardServe_nested h happly
  obtain ⟨hbefore, hcall⟩ := hguards.eq_of_match hmatch rfl
  have hstart : utf8Width before = 59 := by
    rw [hbefore, ← htext]
    decide +kernel
  have hstop : utf8Width (before ++ call) = 82 := by
    rw [hbefore, hcall, ← htext]
    decide +kernel
  obtain ⟨hregion, hpatched⟩ := hbrackets _ _ _ rfl
    ⟨by rw [hstart]; rfl, by rw [hstop]; decide +kernel⟩
  obtain ⟨ps, hps, -, hiff⟩ := hpatched (by decide +kernel) (by decide +kernel)
  exact ⟨_, _, before, call, after, h, happly, hguards,
    hregion.mpr ⟨by decide +kernel, by decide +kernel⟩, ps, hps, hiff.mpr (by decide +kernel)⟩

/-- The text that is taken for the call ends inside its options, and so does the guard. -/
theorem guardServe_splits_call :
    ∃ text, text = "const nitroApp = useNitroApp();let _fetch = nitroApp.fetch;".toList ++
        "serve(\x7bfetch: _fetch, onError() \x7blog(\x7b\x7d);\x7d\x7d);".toList ∧
      ∃ out before call after, NestedText text ∧ guardServe.apply text = (out, .applied 1) ∧
        Guards text before call after out ∧ ¬ NestedText call ∧ ¬ NestedText out := by
  have hsetUp : String.toList "const nitroApp = useNitroApp();let _fetch = nitroApp.fetch;" = _ :=
    String.toList_ofList
  have hserver :
      String.toList "serve(\x7bfetch: _fetch, onError() \x7blog(\x7b\x7d);\x7d\x7d);" = _ :=
    String.toList_ofList
  rw [hsetUp, hserver]
  refine ⟨_, rfl, ?_⟩
  generalize htext : (_ ++ _ : List Char) = text
  have happly : guardServe.apply text = ((guardServe.apply text).1, .applied 1) := by
    rw [← htext]
    decide +kernel
  have hmatch : guardServe.matchesIn text = [⟨0, 100, [(2, 59, 100), (1, 0, 59)]⟩] := by
    rw [← htext]
    decide +kernel
  obtain ⟨-, before, call, after, hguards⟩ := guards_of_applied happly
  refine ⟨_, before, call, after, ?_, happly, hguards, ?_, ?_⟩
  · rw [← htext]
    decide +kernel
  · rw [(hguards.eq_of_match hmatch rfl).2, ← htext]
    decide +kernel
  · rw [← htext]
    decide +kernel

end EdgeBundle.Patch
