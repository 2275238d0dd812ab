import TableService.Text.Percent

/-!
# Escapes read back

A text that is written with escapes and then decoded is the text again, whatever class of
characters is escaped, as long as **`%` itself is in the class**. Two round trips make it up:

* bytes of UTF-8 read back as the characters that they encode (`Utf8.decode_encode`), and
* escapes and plain characters stand for the bytes of the text (`bytes_escape`).

What is written with escapes has no character of the class left in it, so a reader that stops at
one reads on to the end. And decoding loses no text altogether: damage becomes U+FFFD, so only the
empty text decodes to the empty text.
-/

namespace TableService

/-! ## 1. UTF-8 -/

namespace Utf8

theorem toNat_ofNat {n : Nat} (h : n < 256) : (UInt8.ofNat n).toNat = n := by
  rw [UInt8.toNat_ofNat']
  exact Nat.mod_eq_of_lt h

theorem decodeFrom_cons (state : Option Pending) (b : UInt8) (bs : List UInt8) :
    decodeFrom state (b :: bs)
      = (step state b.toNat).1 ++ decodeFrom (step state b.toNat).2 bs := by
  cases state with
  | none => rfl
  | some p => rfl

/-- A byte that ends a character: its six bits are the last. -/
theorem decodeFrom_last {bits low high k : Nat} (bs : List UInt8) (hk : k < 64)
    (hlow : low ≤ 0x80 + k) (hhigh : 0x80 + k ≤ high) :
    decodeFrom (some ⟨bits, 1, low, high⟩) (UInt8.ofNat (0x80 + k) :: bs)
      = Char.ofNat (64 * bits + k) :: decodeFrom none bs := by
  rw [decodeFrom_cons, toNat_ofNat (by omega), step, if_pos ⟨hlow, hhigh⟩, if_pos (Nat.le_refl 1),
    Nat.add_sub_cancel_left]
  rfl

/-- A byte inside a character: its six bits join the ones before. -/
theorem decodeFrom_inner {bits missing low high k : Nat} (bs : List UInt8) (hk : k < 64)
    (hlow : low ≤ 0x80 + k) (hhigh : 0x80 + k ≤ high) :
    decodeFrom (some ⟨bits, missing + 2, low, high⟩) (UInt8.ofNat (0x80 + k) :: bs)
      = decodeFrom (some ⟨64 * bits + k, missing + 1, 0x80, 0xBF⟩) bs := by
  have hmore : ¬ missing + 2 ≤ 1 := by omega
  rw [decodeFrom_cons, toNat_ofNat (by omega), step, if_pos ⟨hlow, hhigh⟩, if_neg hmore,
    Nat.add_sub_cancel_left]
  rfl

/-- A byte that begins a character. -/
theorem decodeFrom_start {b : Nat} {p : Pending} (bs : List UInt8) (hb : b < 256)
    (h : start b = ([], some p)) :
    decodeFrom none (UInt8.ofNat b :: bs) = decodeFrom (some p) bs := by
  rw [decodeFrom_cons, toNat_ofNat hb, step, h]
  rfl

theorem start_two {n : Nat} (hlow : 0x80 ≤ n) (hhigh : n < 0x800) :
    start (0xC0 + n / 64) = ([], some ⟨n / 64, 1, 0x80, 0xBF⟩) := by
  rw [start, if_neg (by omega), if_neg (by omega), if_pos (by omega), Nat.add_sub_cancel_left]

/-- The lead of three bytes lets the second byte of the character pass. What it keeps out are
spellings that are too long, and surrogates. -/
theorem start_three {n : Nat} (hlow : 0x800 ≤ n) (hhigh : n < 0x10000)
    (hscalar : n < 0xD800 ∨ 0xDFFF < n) :
    ∃ low high, start (0xE0 + n / 4096) = ([], some ⟨n / 4096, 2, low, high⟩) ∧
      low ≤ 0x80 + n / 64 % 64 ∧ 0x80 + n / 64 % 64 ≤ high := by
  by_cases hfirst : n / 4096 = 0
  · refine ⟨0xA0, 0xBF, ?_, by omega, by omega⟩
    rw [hfirst]
    rfl
  · by_cases hsurrogate : n / 4096 = 0xD
    · refine ⟨0x80, 0x9F, ?_, by omega, by omega⟩
      rw [hsurrogate]
      rfl
    · refine ⟨0x80, 0xBF, ?_, by omega, by omega⟩
      rw [start, if_neg (by omega), if_neg (by omega), if_neg (by omega), if_neg (by omega),
        if_neg (by omega), if_pos (by omega), Nat.add_sub_cancel_left]

/-- The lead of four bytes, likewise. What it keeps out lies beyond the last code point. -/
theorem start_four {n : Nat} (hlow : 0x10000 ≤ n) (hhigh : n < 0x110000) :
    ∃ low high, start (0xF0 + n / 262144) = ([], some ⟨n / 262144, 3, low, high⟩) ∧
      low ≤ 0x80 + n / 4096 % 64 ∧ 0x80 + n / 4096 % 64 ≤ high := by
  by_cases hfirst : n / 262144 = 0
  · refine ⟨0x90, 0xBF, ?_, by omega, by omega⟩
    rw [hfirst]
    rfl
  · by_cases hlast : n / 262144 = 4
    · refine ⟨0x80, 0x8F, ?_, by omega, by omega⟩
      rw [hlast]
      rfl
    · refine ⟨0x80, 0xBF, ?_, by omega, by omega⟩
      rw [start, if_neg (by omega), if_neg (by omega), if_neg (by omega), if_neg (by omega),
        if_neg (by omega), if_neg (by omega), if_neg (by omega), if_pos (by omega),
        Nat.add_sub_cancel_left]

/-- The bytes of a character read back as the character, and leave nothing pending. -/
theorem decodeFrom_encodeChar (c : Char) (bs : List UInt8) :
    decodeFrom none (encodeChar c ++ bs) = c :: decodeFrom none bs := by
  have hvalid : c.toNat < 0xD800 ∨ 0xDFFF < c.toNat ∧ c.toNat < 0x110000 := c.valid
  have hmod : ∀ k : Nat, k % 64 < 64 := fun k => Nat.mod_lt k (by omega)
  unfold encodeChar
  dsimp only
  -- By the number of bytes. Each byte has its lemma; then the bits are those of the character.
  split
  · next h =>
    rw [List.singleton_append, decodeFrom_cons, toNat_ofNat (by omega), step, start, if_pos h,
      Char.ofNat_toNat]
    rfl
  · split
    · next h =>
      simp only [List.cons_append, List.nil_append]
      have hbits : 64 * (c.toNat / 64) + c.toNat % 64 = c.toNat := by omega
      rw [decodeFrom_start _ (by omega) (start_two (by omega) h),
        decodeFrom_last _ (hmod _) (by omega) (by omega), hbits, Char.ofNat_toNat]
    · split
      · next h =>
        obtain ⟨low, high, hstart, hlow, hhigh⟩ := @start_three c.toNat (by omega) h (by omega)
        simp only [List.cons_append, List.nil_append]
        have hbits : 64 * (64 * (c.toNat / 4096) + c.toNat / 64 % 64) + c.toNat % 64 = c.toNat := by
          omega
        rw [decodeFrom_start _ (by omega) hstart, decodeFrom_inner _ (hmod _) hlow hhigh,
          decodeFrom_last _ (hmod _) (by omega) (by omega), hbits, Char.ofNat_toNat]
      · next h =>
        obtain ⟨low, high, hstart, hlow, hhigh⟩ := @start_four c.toNat (by omega) (by omega)
        simp only [List.cons_append, List.nil_append]
        have hbits : 64 * (64 * (64 * (c.toNat / 262144) + c.toNat / 4096 % 64)
            + c.toNat / 64 % 64) + c.toNat % 64 = c.toNat := by
          omega
        rw [decodeFrom_start _ (by omega) hstart, decodeFrom_inner _ (hmod _) hlow hhigh,
          decodeFrom_inner _ (hmod _) (by omega) (by omega),
          decodeFrom_last _ (hmod _) (by omega) (by omega), hbits, Char.ofNat_toNat]

/-- **Encoded text reads back unchanged.** -/
theorem decode_encode (t : Text) : decode (encode t) = t := by
  unfold decode
  induction t with
  | nil => rfl
  | cons c t ih =>
    show decodeFrom none (encodeChar c ++ encode t) = c :: t
    rw [decodeFrom_encodeChar, ih]

end Utf8

/-! ## 2. Escapes -/

namespace Percent

variable {special stop : Char → Bool}

theorem hexValue?_upperHexDigit : ∀ n < 16, hexValue? (upperHexDigit n) = some n := by decide

theorem bytes_cons {c : Char} (h : c ≠ '%') (t : Text) :
    bytes (c :: t) = Utf8.encodeChar c ++ bytes t := by
  rw [bytes]
  rintro a b r rfl
  exact absurd rfl h

theorem bytes_escapeByte (b : UInt8) (t : Text) :
    bytes (escapeByte b ++ t) = b :: bytes t := by
  have hb : b.toNat < 256 := b.toNat_lt_size
  have hbyte : 16 * (b.toNat / 16) + b.toNat % 16 = b.toNat := by omega
  show bytes ('%' :: upperHexDigit (b.toNat / 16) :: upperHexDigit (b.toNat % 16) :: t) = _
  rw [bytes, hexValue?_upperHexDigit _ (by omega), hexValue?_upperHexDigit _ (by omega)]
  show UInt8.ofNat (16 * (b.toNat / 16) + b.toNat % 16) :: bytes t = b :: bytes t
  rw [hbyte, UInt8.ofNat_toNat]

theorem bytes_escapeBytes (bs : List UInt8) (t : Text) :
    bytes (bs.flatMap escapeByte ++ t) = bs ++ bytes t := by
  induction bs with
  | nil => rfl
  | cons b bs ih =>
    rw [List.flatMap_cons, List.append_assoc, bytes_escapeByte, ih, List.cons_append]

/-- Written with escapes, a text stands for its own bytes. -/
theorem bytes_escape (h : special '%' = true) (t : Text) :
    bytes (escape special t) = Utf8.encode t := by
  induction t with
  | nil => rfl
  | cons c t ih =>
    rw [escape, List.flatMap_cons]
    show bytes (_ ++ escape special t) = Utf8.encodeChar c ++ Utf8.encode t
    rw [← ih]
    split
    · exact bytes_escapeBytes _ _
    · next hc =>
      refine bytes_cons ?_ _
      rintro rfl
      exact hc h

/-- **What is written with escapes decodes to the text.** -/
theorem decode_escape (h : special '%' = true) (t : Text) : decode (escape special t) = t := by
  rw [decode, bytes_escape h, Utf8.decode_encode]

/-- What an escape is written with. -/
theorem mem_escapeByte {b : UInt8} {c : Char} (h : c ∈ escapeByte b) :
    c = '%' ∨ ∃ n < 16, c = upperHexDigit n := by
  have hb : b.toNat < 256 := b.toNat_lt_size
  simp only [escapeByte, List.mem_cons, List.not_mem_nil, or_false] at h
  rcases h with rfl | rfl | rfl
  · exact Or.inl rfl
  · exact Or.inr ⟨_, by omega, rfl⟩
  · exact Or.inr ⟨_, by omega, rfl⟩

/-- A reader does not stop inside a text whose stops are escaped, if it reads on over escapes. -/
theorem not_stop_of_mem_escape (hstop : ∀ c, stop c = true → special c = true)
    (hpercent : stop '%' = false) (hdigit : ∀ n < 16, stop (upperHexDigit n) = false) {t : Text}
    {c : Char} (h : c ∈ escape special t) : stop c = false := by
  obtain ⟨d, -, hc⟩ := List.mem_flatMap.mp h
  split at hc
  · obtain ⟨b, -, hb⟩ := List.mem_flatMap.mp hc
    rcases mem_escapeByte hb with rfl | ⟨n, hn, rfl⟩
    · exact hpercent
    · exact hdigit n hn
  · next hd =>
    obtain rfl := List.mem_singleton.mp hc
    cases hs : stop c with
    | false => rfl
    | true => exact absurd (hstop c hs) hd

end Percent

/-! ## 3. Only the empty text decodes to the empty text -/

namespace Utf8

/-- A byte finishes some text, or leaves something pending. -/
theorem step_makes (state : Option Pending) (b : Nat) :
    (step state b).1 ≠ [] ∨ ∃ p, (step state b).2 = some p := by
  have hstart : (start b).1 ≠ [] ∨ ∃ p, (start b).2 = some p := by
    unfold start
    repeat' split
    all_goals simp
  cases state with
  | none => exact hstart
  | some p =>
    unfold step
    dsimp only
    split
    · split
      · simp
      · simp
    · exact .inl (by simp)

theorem decodeFrom_pending_ne_nil : ∀ (bs : List UInt8) (p : Pending), decodeFrom (some p) bs ≠ []
  | [], _ => by simp [decodeFrom]
  | b :: bs, p => by
    rw [decodeFrom_cons]
    rcases step_makes (some p) b.toNat with h | ⟨q, hq⟩
    · simp [h]
    · rw [hq]
      simp [decodeFrom_pending_ne_nil bs q]

theorem eq_nil_of_decode {bs : List UInt8} (h : decode bs = []) : bs = [] := by
  cases bs with
  | nil => rfl
  | cons b bs =>
    rw [decode, decodeFrom_cons, List.append_eq_nil_iff] at h
    rcases step_makes none b.toNat with hstep | ⟨p, hp⟩
    · exact absurd h.1 hstep
    · rw [hp] at h
      exact absurd h.2 (decodeFrom_pending_ne_nil bs p)

theorem encodeChar_ne_nil (c : Char) : encodeChar c ≠ [] := by
  unfold encodeChar
  dsimp only
  repeat' split
  all_goals simp

end Utf8

namespace Percent

theorem eq_nil_of_bytes {t : Text} (h : bytes t = []) : t = [] := by
  unfold bytes at h
  split at h
  · split at h
    · cases h
    · exact absurd (List.append_eq_nil_iff.mp h).1 (Utf8.encodeChar_ne_nil _)
  · exact absurd (List.append_eq_nil_iff.mp h).1 (Utf8.encodeChar_ne_nil _)
  · rfl

theorem eq_nil_of_decode {t : Text} (h : decode t = []) : t = [] :=
  eq_nil_of_bytes (Utf8.eq_nil_of_decode h)

end Percent
end TableService
