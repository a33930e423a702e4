import EdgeBundle.Text.Utf8
import Mathlib.Tactic.SplitIfs

/-!
# Decoding what was encoded

A text is the text of its bytes, and no other bytes have it as their text. Bytes that are no UTF-8
have a lossy text all the same: what could have started a character counts as one replacement
character, and so does a byte that cannot start one.

## Main statements

* `decode?_eq_some_iff`: the bytes that are UTF-8 are those of texts.
* `decodeLossy_encode_append`: the lossy text of the bytes of a text and more.
* `decodeLossy_cons_of_startsNone`: a byte that starts no character is replaced.
-/

namespace EdgeBundle.Utf8

variable {first b : UInt8} {bytes rest : List UInt8} {n m : Nat} {c : Char}

/-! ## Bytes of a character -/

theorem lead?_two (hlow : 2 ≤ n) (hn : n < 32) :
    lead? (UInt8.ofNat (n + 0xC0)) = some (1, 0x80, 0xBF, n) := by
  have hall : ∀ n : Fin 32, 2 ≤ n.val →
      lead? (UInt8.ofNat (n.val + 0xC0)) = some (1, 0x80, 0xBF, n.val) := by decide
  exact hall ⟨n, hn⟩ hlow

/-- The second byte after `E0` is higher and the one after `ED` lower than elsewhere, because of
shorter forms and surrogates. -/
theorem lead?_three (hn : n < 16) :
    lead? (UInt8.ofNat (n + 0xE0)) =
      some (2, if n = 0 then 0xA0 else 0x80, if n = 13 then 0x9F else 0xBF, n) := by
  have hall : ∀ n : Fin 16, lead? (UInt8.ofNat (n.val + 0xE0)) =
      some (2, if n.val = 0 then 0xA0 else 0x80, if n.val = 13 then 0x9F else 0xBF, n.val) := by
    decide
  exact hall ⟨n, hn⟩

theorem lead?_four (hn : n < 5) :
    lead? (UInt8.ofNat (n + 0xF0)) =
      some (3, if n = 0 then 0x90 else 0x80, if n = 4 then 0x8F else 0xBF, n) := by
  have hall : ∀ n : Fin 5, lead? (UInt8.ofNat (n.val + 0xF0)) =
      some (3, if n.val = 0 then 0x90 else 0x80, if n.val = 4 then 0x8F else 0xBF, n.val) := by
    decide
  exact hall ⟨n, hn⟩

theorem second_three_iff :
    ((if n = 0 then 0xA0 else 0x80) ≤ b ∧ b ≤ if n = 13 then 0x9F else 0xBF) ↔
      0x80 ≤ b.toNat ∧ b.toNat ≤ 0xBF ∧ (n = 0 → 0xA0 ≤ b.toNat) ∧ (n = 13 → b.toNat ≤ 0x9F) := by
  simp only [UInt8.le_iff_toNat_le]
  split_ifs <;> simp only [UInt8.reduceToNat] <;> omega

theorem second_four_iff :
    ((if n = 0 then 0x90 else 0x80) ≤ b ∧ b ≤ if n = 4 then 0x8F else 0xBF) ↔
      0x80 ≤ b.toNat ∧ b.toNat ≤ 0xBF ∧ (n = 0 → 0x90 ≤ b.toNat) ∧ (n = 4 → b.toNat ≤ 0x8F) := by
  simp only [UInt8.le_iff_toNat_le]
  split_ifs <;> simp only [UInt8.reduceToNat] <;> omega

theorem toNat_continuation (hm : m < 64) : (UInt8.ofNat (m + 0x80)).toNat = m + 0x80 := by
  rw [UInt8.toNat_ofNat']
  omega

theorem readRest_continuation (hm : m < 64) (count value : Nat) (bytes : List UInt8) :
    readRest (count + 1) value (UInt8.ofNat (m + 0x80) :: bytes) =
      readRest count (64 * value + m) bytes := by
  have hb := toNat_continuation hm
  have hcontinues : isContinuation (UInt8.ofNat (m + 0x80)) = true := by
    simp only [isContinuation, Bool.and_eq_true, decide_eq_true_eq, UInt8.le_iff_toNat_le,
      UInt8.reduceToNat]
    omega
  rw [readRest, if_pos hcontinues, hb, Nat.add_sub_cancel]

theorem readChar_of_lead? {count value : Nat} {least greatest : UInt8}
    (hlead : lead? first = some (count, least, greatest, value))
    (hb : least ≤ b ∧ b ≤ greatest) (hfirst : ¬ first < 0x80) :
    readChar first (b :: bytes) =
      readRest (count - 1) (64 * value + (b.toNat - 0x80)) bytes := by
  unfold readChar
  rw [if_neg hfirst, hlead]
  exact if_pos hb

theorem readChar_two (hlow : 2 ≤ n) (hn : n < 32) (hm : m < 64) (bytes : List UInt8) :
    readChar (UInt8.ofNat (n + 0xC0)) (UInt8.ofNat (m + 0x80) :: bytes) =
      (some (Char.ofNat (64 * n + m)), bytes) := by
  have hb := toNat_continuation hm
  rw [readChar_of_lead? (lead?_two hlow hn), hb, Nat.add_sub_cancel, readRest]
  · simp only [UInt8.le_iff_toNat_le, hb, UInt8.reduceToNat]
    omega
  · simp only [UInt8.lt_iff_toNat_lt, UInt8.toNat_ofNat', UInt8.reduceToNat]
    omega

/-- Surrogates, and what fits in two bytes, have no third one. -/
theorem readChar_three (hn : n < 16) (hm : m < 64) (hlow : 0x20 ≤ 64 * n + m)
    (hsurrogate : 64 * n + m < 0x360 ∨ 0x380 ≤ 64 * n + m) (bytes : List UInt8) :
    readChar (UInt8.ofNat (n + 0xE0)) (UInt8.ofNat (m + 0x80) :: bytes) =
      readRest 1 (64 * n + m) bytes := by
  have hb := toNat_continuation hm
  rw [readChar_of_lead? (lead?_three hn), hb, Nat.add_sub_cancel]
  · rw [second_three_iff, hb]
    omega
  · simp only [UInt8.lt_iff_toNat_lt, UInt8.toNat_ofNat', UInt8.reduceToNat]
    omega

theorem readChar_four (hn : n < 5) (hm : m < 64) (hlow : 0x10 ≤ 64 * n + m)
    (hhigh : 64 * n + m < 0x110) (bytes : List UInt8) :
    readChar (UInt8.ofNat (n + 0xF0)) (UInt8.ofNat (m + 0x80) :: bytes) =
      readRest 2 (64 * n + m) bytes := by
  have hb := toNat_continuation hm
  rw [readChar_of_lead? (lead?_four hn), hb, Nat.add_sub_cancel]
  · rw [second_four_iff, hb]
    omega
  · simp only [UInt8.lt_iff_toNat_lt, UInt8.toNat_ofNat', UInt8.reduceToNat]
    omega

/-- The bytes of a character, by its digits. -/
theorem utf8EncodeChar_eq (c : Char) :
    String.utf8EncodeChar c =
      if c.toNat ≤ 0x7F then [UInt8.ofNat c.toNat]
      else if c.toNat ≤ 0x7FF then
        [UInt8.ofNat (c.toNat / 64 % 32 + 0xC0), UInt8.ofNat (c.toNat % 64 + 0x80)]
      else if c.toNat ≤ 0xFFFF then
        [UInt8.ofNat (c.toNat / 4096 % 16 + 0xE0), UInt8.ofNat (c.toNat / 64 % 64 + 0x80),
          UInt8.ofNat (c.toNat % 64 + 0x80)]
      else
        [UInt8.ofNat (c.toNat / 262144 % 8 + 0xF0), UInt8.ofNat (c.toNat / 4096 % 64 + 0x80),
          UInt8.ofNat (c.toNat / 64 % 64 + 0x80), UInt8.ofNat (c.toNat % 64 + 0x80)] :=
  rfl

/-- The bytes of a character are read as that character. -/
theorem readChar_utf8EncodeChar (c : Char) (bytes : List UInt8) :
    ∃ first tail, String.utf8EncodeChar c = first :: tail ∧
      readChar first (tail ++ bytes) = (some c, bytes) := by
  have hvalid : c.toNat < 0xD800 ∨ 0xDFFF < c.toNat ∧ c.toNat < 0x110000 := c.valid
  have hc {v : Nat} (h : v = c.toNat) : Char.ofNat v = c := h ▸ Char.ofNat_toNat c
  rw [utf8EncodeChar_eq]
  -- each length has its bounds on the digits, and the digits make up the number again
  split_ifs with hone htwo hthree
  · refine ⟨_, _, rfl, ?_⟩
    have hfirst : (UInt8.ofNat c.toNat).toNat = c.toNat := by
      rw [UInt8.toNat_ofNat']
      omega
    have hlt : UInt8.ofNat c.toNat < 0x80 := by
      rw [UInt8.lt_iff_toNat_lt, hfirst]
      exact Nat.lt_succ_of_le hone
    unfold readChar
    rw [if_pos hlt, hc hfirst, List.nil_append]
  · refine ⟨_, _, rfl, ?_⟩
    rw [List.singleton_append, readChar_two (by omega) (by omega) (by omega), hc (by omega)]
  · refine ⟨_, _, rfl, ?_⟩
    rw [List.cons_append, List.singleton_append,
      readChar_three (by omega) (by omega) (by omega) (by omega),
      readRest_continuation (by omega), readRest, hc (by omega)]
  · refine ⟨_, _, rfl, ?_⟩
    rw [List.cons_append, List.cons_append, List.singleton_append,
      readChar_four (by omega) (by omega) (by omega) (by omega),
      readRest_continuation (by omega), readRest_continuation (by omega), readRest,
      hc (by omega)]

/-! ## Texts -/

theorem pieces_cons (first : UInt8) (bytes : List UInt8) :
    pieces (first :: bytes) = (readChar first bytes).1 :: pieces (readChar first bytes).2 := by
  rw [pieces]

theorem pieces_utf8EncodeChar_append (c : Char) (bytes : List UInt8) :
    pieces (String.utf8EncodeChar c ++ bytes) = some c :: pieces bytes := by
  obtain ⟨first, tail, hbytes, hread⟩ := readChar_utf8EncodeChar c bytes
  rw [hbytes, List.cons_append, pieces_cons, hread]

/-- The pieces of the bytes of a text are its characters. -/
theorem pieces_encode_append (s : String) (bytes : List UInt8) :
    pieces (encode s ++ bytes) = s.toList.map some ++ pieces bytes := by
  rw [encode]
  induction s.toList with
  | nil => rfl
  | cons c cs ih =>
    rw [List.flatMap_cons, List.append_assoc, pieces_utf8EncodeChar_append, ih, List.map_cons,
      List.cons_append]

/-- What follows the bytes of a text does not change the text. -/
theorem decodeLossy_encode_append (s : String) (bytes : List UInt8) :
    decodeLossy (encode s ++ bytes) = s ++ decodeLossy bytes := by
  rw [decodeLossy, pieces_encode_append, List.map_append, String.ofList_append, List.map_map,
    decodeLossy]
  change String.ofList (s.toList.map id) ++ _ = _
  rw [List.map_id, String.ofList_toList]

theorem decodeLossy_nil : decodeLossy [] = "" := by
  rw [decodeLossy, pieces]
  rfl

/-- The lossy text of the bytes of a text is that text. -/
theorem decodeLossy_encode (s : String) : decodeLossy (encode s) = s := by
  rw [← List.append_nil (encode s), decodeLossy_encode_append, decodeLossy_nil, String.append_empty]

/-! ## Bytes that are no text -/

theorem decodeLossy_cons (first : UInt8) (bytes : List UInt8) :
    decodeLossy (first :: bytes) =
      String.singleton ((readChar first bytes).1.getD replacement) ++
        decodeLossy (readChar first bytes).2 := by
  rw [decodeLossy, pieces_cons, List.map_cons, String.ofList_cons, decodeLossy]

theorem lead?_eq_none (h : first < 0xC2 ∨ 0xF4 < first) : lead? first = none := by
  have hall : ∀ n : Fin 256, n.val < 0xC2 ∨ 0xF4 < n.val → lead? (UInt8.ofNat n.val) = none := by
    decide +kernel
  -- a byte is the byte of its number
  rw [← UInt8.ofNat_toNat (x := first)]
  refine hall ⟨first.toNat, first.toNat_lt⟩ ?_
  simpa only [UInt8.lt_iff_toNat_lt, UInt8.reduceToNat] using h

/-- A byte that starts no character is replaced, and what follows it is read as if the byte were not
there. -/
theorem decodeLossy_cons_of_startsNone (h : 0x80 ≤ first ∧ first < 0xC2 ∨ 0xF4 < first)
    (bytes : List UInt8) :
    decodeLossy (first :: bytes) = String.singleton replacement ++ decodeLossy bytes := by
  have hfirst : ¬ first < 0x80 := by
    simp only [UInt8.lt_iff_toNat_lt, UInt8.le_iff_toNat_le, UInt8.reduceToNat] at h ⊢
    omega
  have hread : readChar first bytes = (none, bytes) := by
    unfold readChar
    rw [if_neg hfirst, lead?_eq_none (h.imp_left And.right)]
  rw [decodeLossy_cons, hread, Option.getD_none]

/-! ## Bytes that are a text -/

theorem readRest_eq_some {count value : Nat}
    (h : readRest (count + 1) value bytes = (some c, rest)) :
    ∃ m tail, m < 64 ∧ bytes = UInt8.ofNat (m + 0x80) :: tail ∧
      readRest count (64 * value + m) tail = (some c, rest) := by
  cases bytes with
  | nil => cases h
  | cons b tail =>
    rw [readRest] at h
    split at h
    · next hcontinues =>
      simp only [isContinuation, Bool.and_eq_true, decide_eq_true_eq, UInt8.le_iff_toNat_le,
        UInt8.reduceToNat] at hcontinues
      refine ⟨b.toNat - 0x80, tail, by omega, ?_, h⟩
      rw [Nat.sub_add_cancel hcontinues.1, UInt8.ofNat_toNat]
    · cases h

/-- The first byte of a character of two, three or four bytes. -/
theorem of_lead?_eq_some {q : Nat × UInt8 × UInt8 × Nat} (h : lead? first = some q) :
    (∃ n, 2 ≤ n ∧ n < 32 ∧ first = UInt8.ofNat (n + 0xC0)) ∨
      (∃ n, n < 16 ∧ first = UInt8.ofNat (n + 0xE0)) ∨
      ∃ n, n < 5 ∧ first = UInt8.ofNat (n + 0xF0) := by
  have hfirst : ¬ (first < 0xC2 ∨ 0xF4 < first) := fun hout => by
    rw [lead?_eq_none hout] at h
    cases h
  simp only [UInt8.lt_iff_toNat_lt, UInt8.reduceToNat] at hfirst
  have hof {m : Nat} (hm : m = first.toNat) : first = UInt8.ofNat m := by
    rw [hm, UInt8.ofNat_toNat]
  by_cases htwo : first.toNat < 0xE0
  · exact .inl ⟨first.toNat - 0xC0, by omega, by omega, hof (by omega)⟩
  · by_cases hthree : first.toNat < 0xF0
    · exact .inr (.inl ⟨first.toNat - 0xE0, by omega, hof (by omega)⟩)
    · exact .inr (.inr ⟨first.toNat - 0xF0, by omega, hof (by omega)⟩)

theorem toNat_ofNat_of_valid {v : Nat} (h : v < 0xD800 ∨ 0xDFFF < v ∧ v < 0x110000) :
    (Char.ofNat v).toNat = v := by
  rw [Char.ofNat, dif_pos h]
  rfl

theorem utf8EncodeChar_two (hlow : 2 ≤ n) (hn : n < 32) (hm : m < 64) :
    String.utf8EncodeChar (Char.ofNat (64 * n + m)) =
      [UInt8.ofNat (n + 0xC0), UInt8.ofNat (m + 0x80)] := by
  rw [utf8EncodeChar_eq, toNat_ofNat_of_valid (by omega), if_neg (by omega), if_pos (by omega)]
  have hdigits : (64 * n + m) / 64 % 32 = n ∧ (64 * n + m) % 64 = m := by omega
  rw [hdigits.1, hdigits.2]

theorem utf8EncodeChar_three {l : Nat} (hn : n < 16) (hm : m < 64) (hl : l < 64)
    (hlow : 0x20 ≤ 64 * n + m) (hsurrogate : 64 * n + m < 0x360 ∨ 0x380 ≤ 64 * n + m) :
    String.utf8EncodeChar (Char.ofNat (64 * (64 * n + m) + l)) =
      [UInt8.ofNat (n + 0xE0), UInt8.ofNat (m + 0x80), UInt8.ofNat (l + 0x80)] := by
  rw [utf8EncodeChar_eq, toNat_ofNat_of_valid (by omega), if_neg (by omega), if_neg (by omega),
    if_pos (by omega)]
  have hdigits : (64 * (64 * n + m) + l) / 4096 % 16 = n ∧
      (64 * (64 * n + m) + l) / 64 % 64 = m ∧ (64 * (64 * n + m) + l) % 64 = l := by omega
  rw [hdigits.1, hdigits.2.1, hdigits.2.2]

theorem utf8EncodeChar_four {l k : Nat} (hm : m < 64) (hl : l < 64) (hk : k < 64)
    (hlow : 0x10 ≤ 64 * n + m) (hhigh : 64 * n + m < 0x110) :
    String.utf8EncodeChar (Char.ofNat (64 * (64 * (64 * n + m) + l) + k)) =
      [UInt8.ofNat (n + 0xF0), UInt8.ofNat (m + 0x80), UInt8.ofNat (l + 0x80),
        UInt8.ofNat (k + 0x80)] := by
  rw [utf8EncodeChar_eq, toNat_ofNat_of_valid (by omega), if_neg (by omega), if_neg (by omega),
    if_neg (by omega)]
  have hdigits : (64 * (64 * (64 * n + m) + l) + k) / 262144 % 8 = n ∧
      (64 * (64 * (64 * n + m) + l) + k) / 4096 % 64 = m ∧
      (64 * (64 * (64 * n + m) + l) + k) / 64 % 64 = l ∧
      (64 * (64 * (64 * n + m) + l) + k) % 64 = k := by omega
  rw [hdigits.1, hdigits.2.1, hdigits.2.2.1, hdigits.2.2.2]

/-- What is read after the second byte of a character comes from the bytes of that character. -/
theorem of_readRest_eq_some {count value : Nat} {least greatest : UInt8}
    (hlead : lead? first = some (count, least, greatest, value)) (hb : least ≤ b ∧ b ≤ greatest)
    (h : readRest (count - 1) (64 * value + (b.toNat - 0x80)) bytes = (some c, rest)) :
    first :: b :: bytes = String.utf8EncodeChar c ++ rest := by
  have hsecond (hlow : 0x80 ≤ b.toNat) : b = UInt8.ofNat (b.toNat - 0x80 + 0x80) := by
    rw [Nat.sub_add_cancel hlow, UInt8.ofNat_toNat]
  -- the first byte says how many bytes follow and in which range the second one is
  obtain ⟨n, hlow, hn, rfl⟩ | ⟨n, hn, rfl⟩ | ⟨n, hn, rfl⟩ := of_lead?_eq_some hlead
  · obtain ⟨rfl, rfl, rfl, rfl⟩ : 1 = count ∧ 0x80 = least ∧ 0xBF = greatest ∧ n = value := by
      simpa only [lead?_two hlow hn, Option.some.injEq, Prod.mk.injEq] using hlead
    simp only [UInt8.le_iff_toNat_le, UInt8.reduceToNat] at hb
    obtain ⟨rfl, rfl⟩ : Char.ofNat (64 * n + (b.toNat - 0x80)) = c ∧ bytes = rest := by
      simpa [readRest] using h
    rw [utf8EncodeChar_two hlow hn (by omega), ← hsecond hb.1]
    rfl
  · obtain ⟨rfl, rfl, rfl, rfl⟩ : 2 = count ∧ (if n = 0 then 0xA0 else 0x80) = least ∧
        (if n = 13 then 0x9F else 0xBF) = greatest ∧ n = value := by
      simpa only [lead?_three hn, Option.some.injEq, Prod.mk.injEq] using hlead
    obtain ⟨l, tail, hl, rfl, htail⟩ := readRest_eq_some h
    obtain ⟨rfl, rfl⟩ : Char.ofNat (64 * (64 * n + (b.toNat - 0x80)) + l) = c ∧ tail = rest := by
      simpa [readRest] using htail
    have hrange := second_three_iff.mp hb
    rw [utf8EncodeChar_three hn (by omega) hl (by omega) (by omega), ← hsecond hrange.1]
    rfl
  · obtain ⟨rfl, rfl, rfl, rfl⟩ : 3 = count ∧ (if n = 0 then 0x90 else 0x80) = least ∧
        (if n = 4 then 0x8F else 0xBF) = greatest ∧ n = value := by
      simpa only [lead?_four hn, Option.some.injEq, Prod.mk.injEq] using hlead
    obtain ⟨l, _, hl, rfl, hnext⟩ := readRest_eq_some h
    obtain ⟨k, tail, hk, rfl, htail⟩ := readRest_eq_some hnext
    obtain ⟨rfl, rfl⟩ :
        Char.ofNat (64 * (64 * (64 * n + (b.toNat - 0x80)) + l) + k) = c ∧ tail = rest := by
      simpa [readRest] using htail
    have hrange := second_four_iff.mp hb
    rw [utf8EncodeChar_four (by omega) hl hk (by omega) (by omega), ← hsecond hrange.1]
    rfl

/-- Only the bytes of a character are read as that character. -/
theorem of_readChar_eq_some (h : readChar first bytes = (some c, rest)) :
    first :: bytes = String.utf8EncodeChar c ++ rest := by
  unfold readChar at h
  split at h
  · next hfirst =>
    simp only [UInt8.lt_iff_toNat_lt, UInt8.reduceToNat] at hfirst
    obtain ⟨rfl, rfl⟩ : Char.ofNat first.toNat = c ∧ bytes = rest := by simpa using h
    rw [utf8EncodeChar_eq, toNat_ofNat_of_valid (by omega), if_pos (by omega), UInt8.ofNat_toNat,
      List.singleton_append]
  · split at h
    · next count least greatest value b tail hlead =>
      split at h
      · next hb =>
        exact of_readRest_eq_some hlead hb h
      · cases h
    · cases h

theorem eq_flatMap_of_pieces {cs : List Char} (h : pieces bytes = cs.map some) :
    bytes = cs.flatMap String.utf8EncodeChar := by
  induction cs generalizing bytes with
  | nil =>
    cases bytes with
    | nil => rfl
    | cons first bytes =>
      rw [pieces_cons] at h
      cases h
  | cons c cs ih =>
    cases bytes with
    | nil =>
      rw [pieces] at h
      cases h
    | cons first bytes =>
      rw [pieces_cons, List.map_cons, List.cons.injEq] at h
      have hread : readChar first bytes = (some c, (readChar first bytes).2) := Prod.ext h.1 rfl
      rw [of_readChar_eq_some hread, List.flatMap_cons, ← ih h.2]

theorem mapM_id_eq_some_iff {found : List (Option Char)} {cs : List Char} :
    found.mapM id = some cs ↔ found = cs.map some := by
  constructor
  · intro h
    induction found generalizing cs with
    | nil => cases h; rfl
    | cons piece found ih =>
      rw [List.mapM_cons] at h
      obtain ⟨c, hc, h⟩ := Option.bind_eq_some_iff.mp h
      obtain ⟨cs', hcs', h⟩ := Option.bind_eq_some_iff.mp h
      rw [← Option.some.inj h, List.map_cons, ← ih hcs']
      exact congrArg (· :: found) hc
  · rintro rfl
    induction cs with
    | nil => rfl
    | cons c cs ih => rw [List.map_cons, List.mapM_cons, ih]; rfl

/-- Bytes are UTF-8 if they are the bytes of a text, which is then theirs. -/
theorem decode?_eq_some_iff {s : String} : decode? bytes = some s ↔ bytes = encode s := by
  rw [decode?, Option.map_eq_some_iff]
  constructor
  · rintro ⟨cs, hcs, rfl⟩
    rw [encode, String.toList_ofList]
    exact eq_flatMap_of_pieces (mapM_id_eq_some_iff.mp hcs)
  · rintro rfl
    refine ⟨s.toList, mapM_id_eq_some_iff.mpr ?_, String.ofList_toList⟩
    rw [← List.append_nil (encode s), pieces_encode_append, pieces, List.append_nil]

/-- The text of bytes that are UTF-8 is their lossy text. -/
theorem decodeLossy_of_decode? {s : String} (h : decode? bytes = some s) :
    decodeLossy bytes = s := by
  rw [decode?_eq_some_iff.mp h, decodeLossy_encode]

end EdgeBundle.Utf8
