import Mathlib.Data.String.Basic

/-!
# Order of texts by their bytes

Texts are compared character by character. UTF-8 is made so that comparing their bytes gives the
same order: more bytes start with a larger one, and among characters with the same number of bytes
the bytes are the digits of the code point.

## Main definitions

* `utf8Bytes`: bytes of a text.
* `Ascends`: numbers whose bytes are in the order of the numbers.

## Main statements

* `utf8EncodeChar_append_lt`: the bytes of characters.
* `utf8Bytes_lt`: texts in ascending order have bytes in ascending order.
* `utf8Bytes_lt_iff` and `utf8Bytes_le_iff`: the order of texts is that of their bytes.
-/

namespace EdgeBundle

/-- Bytes of a text. -/
def utf8Bytes (s : String) : List UInt8 :=
  s.toUTF8.data.toList

theorem utf8Bytes_eq (s : String) : utf8Bytes s = s.toList.flatMap String.utf8EncodeChar := by
  rw [utf8Bytes, String.toUTF8, ← String.utf8Encode_toList, List.utf8Encode,
    List.data_toByteArray]

/-! ## Bytes as digits -/

theorem ofNat_lt_ofNat {m n : Nat} (hm : m < 256) (hn : n < 256) :
    UInt8.ofNat m < UInt8.ofNat n ↔ m < n := by
  rw [UInt8.lt_iff_toNat_lt, UInt8.toNat_ofNat_of_lt' hm, UInt8.toNat_ofNat_of_lt' hn]

/-- Below the bound, bytes are in the order of their numbers, whatever follows them. -/
def Ascends (bound : Nat) (bytes : Nat → List UInt8) : Prop :=
  ∀ m n, m < n → n < bound → ∀ xs ys, bytes m ++ xs < bytes n ++ ys

/-- A byte that carries the last digit of a number. -/
theorem ascends_lead {bound lead : Nat} (h : bound + lead ≤ 256) :
    Ascends bound fun m => [.ofNat (m % bound + lead)] := by
  intro m n hlt hbound xs ys
  have hbyte : UInt8.ofNat (m % bound + lead) < UInt8.ofNat (n % bound + lead) := by
    rw [Nat.mod_eq_of_lt hbound, Nat.mod_eq_of_lt (hlt.trans hbound),
      ofNat_lt_ofNat (by omega) (by omega)]
    omega
  exact List.cons_lt_cons_iff.mpr (.inl hbyte)

/-- One more byte carries one more digit. -/
theorem Ascends.continued {bound : Nat} {bytes : Nat → List UInt8} (h : Ascends bound bytes) :
    Ascends (64 * bound) fun m => bytes (m / 64) ++ [.ofNat (m % 64 + 128)] := by
  intro m n hlt hbound xs ys
  rw [List.append_assoc, List.append_assoc]
  rcases Nat.lt_or_eq_of_le (Nat.div_le_div_right hlt.le) with hlead | hlead
  · exact h _ _ hlead (by omega) _ _
  -- the digits before the last one are the same
  · have hbyte : UInt8.ofNat (m % 64 + 128) < UInt8.ofNat (n % 64 + 128) := by
      rw [ofNat_lt_ofNat (by omega) (by omega)]
      omega
    rw [hlead]
    exact List.append_left_lt (List.cons_lt_cons_iff.mpr (.inl hbyte))

theorem ascends_one : Ascends 0x80 fun m => [.ofNat m] := by
  intro m n hlt hbound xs ys
  refine List.cons_lt_cons_iff.mpr (.inl ?_)
  rwa [ofNat_lt_ofNat (by omega) (by omega)]

theorem ascends_two :
    Ascends 0x800 fun m => [.ofNat (m / 64 % 0x20 + 0xc0), .ofNat (m % 0x40 + 0x80)] := by
  have hlead : Ascends 0x20 fun m => [.ofNat (m % 0x20 + 0xc0)] := ascends_lead (by decide)
  exact hlead.continued

theorem ascends_three :
    Ascends 0x10000 fun m => [.ofNat (m / 4096 % 0x10 + 0xe0), .ofNat (m / 64 % 0x40 + 0x80),
      .ofNat (m % 0x40 + 0x80)] := by
  have hlead : Ascends 0x10 fun m => [.ofNat (m % 0x10 + 0xe0)] := ascends_lead (by decide)
  simpa [Nat.div_div_eq_div_mul] using hlead.continued.continued

theorem ascends_four :
    Ascends 0x200000 fun m => [.ofNat (m / 262144 % 0x08 + 0xf0),
      .ofNat (m / 4096 % 0x40 + 0x80), .ofNat (m / 64 % 0x40 + 0x80),
      .ofNat (m % 0x40 + 0x80)] := by
  have hlead : Ascends 0x08 fun m => [.ofNat (m % 0x08 + 0xf0)] := ascends_lead (by decide)
  simpa [Nat.div_div_eq_div_mul] using hlead.continued.continued.continued

/-! ## Characters and texts -/

/-- The bytes of a smaller character come first, whatever follows them. -/
theorem utf8EncodeChar_append_lt {c d : Char} (h : c < d) (xs ys : List UInt8) :
    String.utf8EncodeChar c ++ xs < String.utf8EncodeChar d ++ ys := by
  have hcode : c.val.toNat < d.val.toNat := h
  have hmax : d.val.toNat < 0x110000 := by
    rcases d.valid with hd | ⟨-, hd⟩
    · exact hd.trans (by decide)
    · exact hd
  simp only [String.utf8EncodeChar]
  generalize c.val.toNat = m at hcode ⊢
  generalize d.val.toNat = n at hcode hmax ⊢
  -- the first bytes differ where the numbers of bytes do
  have hlead {m n : Nat} {as bs : List UInt8} (hlt : m < n) (hn : n < 256) :
      UInt8.ofNat m :: as < UInt8.ofNat n :: bs :=
    List.cons_lt_cons_iff.mpr (.inl ((ofNat_lt_ofNat (hlt.trans hn) hn).mpr hlt))
  split_ifs
  · exact ascends_one m n hcode (by omega) xs ys
  · exact hlead (by omega) (by omega)
  · exact hlead (by omega) (by omega)
  · exact hlead (by omega) (by omega)
  · omega
  · exact ascends_two m n hcode (by omega) xs ys
  · exact hlead (by omega) (by omega)
  · exact hlead (by omega) (by omega)
  · omega
  · omega
  · exact ascends_three m n hcode (by omega) xs ys
  · exact hlead (by omega) (by omega)
  · omega
  · omega
  · omega
  · exact ascends_four m n hcode (by omega) xs ys

/-- Texts in ascending order have bytes in ascending order. -/
theorem utf8Bytes_lt {s t : String} (h : s < t) : utf8Bytes s < utf8Bytes t := by
  rw [utf8Bytes_eq, utf8Bytes_eq]
  rw [String.lt_iff_toList_lt] at h
  generalize s.toList = as at h
  generalize t.toList = bs at h
  -- on the characters that the texts have in common
  induction h with
  | nil =>
    rw [List.flatMap_nil, List.flatMap_cons]
    cases hbytes : String.utf8EncodeChar _ with
    | nil => exact absurd hbytes String.utf8EncodeChar_ne_nil
    | cons b rest => exact List.nil_lt_cons _ _
  | cons _ ih =>
    rw [List.flatMap_cons, List.flatMap_cons]
    exact List.append_left_lt ih
  | rel hlt =>
    rw [List.flatMap_cons, List.flatMap_cons]
    exact utf8EncodeChar_append_lt hlt _ _

/-- The order of texts is that of their bytes. -/
theorem utf8Bytes_lt_iff {s t : String} : utf8Bytes s < utf8Bytes t ↔ s < t := by
  refine ⟨fun h => ?_, utf8Bytes_lt⟩
  rcases lt_trichotomy s t with hlt | heq | hgt
  · exact hlt
  · rw [heq] at h
    exact absurd h (List.lt_irrefl _)
  · exact absurd (utf8Bytes_lt hgt) (List.lt_asymm h)

theorem utf8Bytes_le_iff {s t : String} : utf8Bytes s ≤ utf8Bytes t ↔ s ≤ t := by
  rw [← List.not_lt, utf8Bytes_lt_iff, String.not_lt]

end EdgeBundle
