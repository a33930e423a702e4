import EdgeBundle.Proofs.Token.Lexeme

/-!
# Runs of the lexer

A run reads one lexeme after another up to the end of the source. Gaps leave the context as it is;
a token changes it. What holds of every source that the lexer accepts is proved by induction on its
run.

## Main definitions

* `Scans`: the run from a context and a place on, with the tokens that it reads.

## Main statements

* `tokenize_eq_ok_iff`: the lexer accepts a source exactly if there is a run.
-/

namespace EdgeBundle.Lexer

/-- Reading the characters from byte `offset` on in a context gives the tokens. -/
inductive Scans : Context → Nat → List Char → List Token → Prop
  | done {ctx : Context} {offset : Nat} : Scans ctx offset [] []
  | gap {ctx : Context} {offset : Nat} {c : Char} {cs : List Char} {more : Nat} {ts : List Token}
      (hl : LexemeAt ctx c cs ⟨none, more⟩)
      (hrest : Scans ctx (offset + utf8Width (c :: cs.take more)) (cs.drop more) ts) :
      Scans ctx offset (c :: cs) ts
  | token {ctx : Context} {offset : Nat} {c : Char} {cs : List Char} {kind : TokenKind}
      {more : Nat} {t : Token} {ts : List Token}
      (hl : LexemeAt ctx c cs ⟨some kind, more⟩)
      (ht : t = ⟨kind, offset, String.ofList (c :: cs.take more)⟩)
      (hrest : Scans (ctx.push t) (offset + utf8Width (c :: cs.take more)) (cs.drop more) ts) :
      Scans ctx offset (c :: cs) (t :: ts)

/-- The lexer gives the tokens of the run after those that it has already. -/
theorem scan_of_scans {ctx : Context} {offset : Nat} {cs : List Char} {ts : List Token}
    (h : Scans ctx offset cs ts) : scan ctx offset cs = .ok (ts.reverse ++ ctx.tokens) := by
  induction h with
  | done => rw [scan, List.reverse_nil, List.nil_append]
  | gap hl _ ih => rw [scan, lexeme_eq_ok_iff.mpr hl]; exact ih
  | token hl ht _ ih =>
    subst ht
    rw [scan, lexeme_eq_ok_iff.mpr hl, List.reverse_cons, List.append_assoc]
    exact ih

theorem exists_scans_of_scan {ctx : Context} {offset : Nat} {cs : List Char} {ts : List Token}
    (h : scan ctx offset cs = .ok ts) :
    ∃ new, ts = new.reverse ++ ctx.tokens ∧ Scans ctx offset cs new := by
  fun_induction scan ctx offset cs with
  | case1 ctx offset => exact ⟨[], by cases h; rfl, .done⟩
  | case2 => cases h
  | case3 ctx offset c cs kind more hl text ctx' ih =>
    obtain ⟨new, hts, hrun⟩ := ih h
    rw [lexeme_eq_ok_iff] at hl
    cases kind with
    | none => exact ⟨new, hts, .gap hl hrun⟩
    | some kind =>
      refine ⟨⟨kind, offset, String.ofList text⟩ :: new, ?_, .token hl rfl hrun⟩
      rw [hts, List.reverse_cons, List.append_assoc]
      rfl

/-- There is one run from a context and place on. -/
theorem Scans.unique {ctx : Context} {offset : Nat} {cs : List Char} {ts us : List Token}
    (h : Scans ctx offset cs ts) (h' : Scans ctx offset cs us) : ts = us := by
  have heq := Except.ok.inj ((scan_of_scans h).symm.trans (scan_of_scans h'))
  exact List.reverse_inj.mp (List.append_cancel_right heq)

instance (src : String) (ts : List Token) : Decidable (tokenize src = .ok ts) :=
  match tokenize src with
  | .ok ts' => decidable_of_iff (ts' = ts) ⟨congrArg Except.ok, Except.ok.inj⟩
  | .error _ => isFalse nofun

/-- The tokens of given characters. -/
theorem tokenize_ofList (cs : List Char) :
    tokenize (String.ofList cs) =
      (scan {} (utf8Width (cs.take (hashbangLength cs))) (cs.drop (hashbangLength cs))).map
        List.reverse := by
  rw [tokenize, String.toList_ofList]

/-- The lexer accepts a source exactly if there is a run over what follows its hashbang line. -/
theorem tokenize_eq_ok_iff {src : String} {ts : List Token} :
    tokenize src = .ok ts ↔
      Scans {} (utf8Width (src.toList.take (hashbangLength src.toList)))
        (src.toList.drop (hashbangLength src.toList)) ts := by
  constructor
  · intro h
    simp only [tokenize] at h
    cases hscan : scan {} (utf8Width (src.toList.take (hashbangLength src.toList)))
        (src.toList.drop (hashbangLength src.toList)) with
    | error e => rw [hscan] at h; cases h
    | ok new =>
      rw [hscan] at h
      obtain ⟨run, rfl, hrun⟩ := exists_scans_of_scan hscan
      cases h
      simpa using hrun
  · intro h
    simp [tokenize, scan_of_scans h, Except.map]

end EdgeBundle.Lexer
