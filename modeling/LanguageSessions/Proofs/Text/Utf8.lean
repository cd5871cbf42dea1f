import LanguageSessions.Text.Utf8

/-!
# Reading back what was written in UTF-8

Each character is written as one to four octets, which the reader takes back one at a time: the first one says how many
are owed and bounds the next one (`first_two`, `first_three`, `first_four`), and each octet behind it brings six bits
(`step_tail`). So the reader gives back every text that was written (`decode_encode`).
-/

namespace LanguageSessions.Text.Utf8

/-- A code point that a character can have. -/
def IsScalar (code : Nat) : Prop := code < 0xD800 ∨ (0xDFFF < code ∧ code < 0x110000)

theorem isScalar_toNat (c : Char) : IsScalar c.toNat := c.valid

theorem toNat_tail (code : Nat) : (tail code).toNat = 0x80 + code % 64 := by
  rw [tail, UInt8.toNat_ofNat']
  omega

theorem toNat_ofNat_of_lt {n : Nat} (h : n < 256) : (UInt8.ofNat n).toNat = n := by
  rw [UInt8.toNat_ofNat']
  omega

/-! ## One octet -/

/-- An octet that is not the first one of its character, within the bounds, brings its six bits. -/
theorem step_tail {low high code : Nat} (owed bits : Nat) (hl : low ≤ 0x80 + code % 64)
    (hh : 0x80 + code % 64 ≤ high) :
    step (.inside owed bits low high) (tail code) =
      match owed with
      | 0 => ([Char.ofNat (bits * 64 + code % 64)], .between)
      | owed + 1 => ([], .inside owed (bits * 64 + code % 64) 0x80 0xBF) := by
  have hb : 0x80 + code % 64 - 0x80 = code % 64 := by omega
  have hbounds : low ≤ (tail code).toNat ∧ (tail code).toNat ≤ high := by
    rw [toNat_tail]
    exact ⟨hl, hh⟩
  cases owed with
  | zero =>
    unfold step
    dsimp only
    rw [if_pos hbounds, toNat_tail, hb]
  | succ owed =>
    unfold step
    dsimp only
    rw [if_pos hbounds, toNat_tail, hb]

theorem first_two {code : Nat} (h : 0x80 ≤ code) (h' : code < 0x800) :
    first (0xC0 + code / 64) = ([], .inside 0 (code / 64) 0x80 0xBF) := by
  unfold first
  rw [if_neg (by omega), if_neg (by omega), if_pos (by omega), Nat.add_sub_cancel_left]

/-- The bounds after the first octet of three shut out what two octets can carry, and the surrogates. -/
theorem first_three {code : Nat} (h : 0x800 ≤ code) (h' : code < 0x10000) (hs : IsScalar code) :
    ∃ low high, first (0xE0 + code / 4096) = ([], .inside 1 (code / 4096) low high) ∧
      low ≤ 0x80 + code / 64 % 64 ∧ 0x80 + code / 64 % 64 ≤ high := by
  unfold IsScalar at hs
  unfold first
  rw [if_neg (by omega), if_neg (by omega), if_neg (by omega)]
  by_cases he : code / 4096 = 0
  · rw [if_pos (by omega), he]
    exact ⟨0xA0, 0xBF, rfl, by omega, by omega⟩
  rw [if_neg (by omega)]
  by_cases hd : code / 4096 = 0xD
  · rw [if_pos (by omega), hd]
    exact ⟨0x80, 0x9F, rfl, by omega, by omega⟩
  rw [if_neg (by omega), if_pos (by omega), Nat.add_sub_cancel_left]
  exact ⟨0x80, 0xBF, rfl, by omega, by omega⟩

/-- The bounds after the first octet of four shut out what three octets can carry, and what is beyond Unicode. -/
theorem first_four {code : Nat} (h : 0x10000 ≤ code) (hs : IsScalar code) :
    ∃ low high, first (0xF0 + code / 262144) = ([], .inside 2 (code / 262144) low high) ∧
      low ≤ 0x80 + code / 4096 % 64 ∧ 0x80 + code / 4096 % 64 ≤ high := by
  unfold IsScalar at hs
  unfold first
  rw [if_neg (by omega), if_neg (by omega), if_neg (by omega), if_neg (by omega), if_neg (by omega), if_neg (by omega)]
  by_cases hz : code / 262144 = 0
  · rw [if_pos (by omega), hz]
    exact ⟨0x90, 0xBF, rfl, by omega, by omega⟩
  rw [if_neg (by omega)]
  by_cases hf : code / 262144 = 4
  · rw [if_neg (by omega), if_pos (by omega), hf]
    exact ⟨0x80, 0x8F, rfl, by omega, by omega⟩
  rw [if_pos (by omega), Nat.add_sub_cancel_left]
  exact ⟨0x80, 0xBF, rfl, by omega, by omega⟩

/-! ## One character -/

theorem run_cons (state : State) (octet : UInt8) (rest : List UInt8) :
    run state (octet :: rest) = (step state octet).1 ++ run (step state octet).2 rest := rfl

theorem step_between {n : Nat} (h : n < 256) : step .between (UInt8.ofNat n) = first n := by
  rw [step, toNat_ofNat_of_lt h]

/-- The octets of a code point are read as its character, and the reader stands between characters then. -/
theorem run_encodeCode {code : Nat} (hs : IsScalar code) (rest : List UInt8) :
    run .between (encodeCode code ++ rest) = Char.ofNat code :: run .between rest := by
  unfold encodeCode
  split
  · next h =>
    rw [List.singleton_append, run_cons, step_between (by omega), first, if_pos h]
    rfl
  split
  · next h h' =>
    rw [List.cons_append, List.singleton_append, run_cons, step_between (by omega), first_two (by omega) h', run_cons,
      step_tail 0 _ (by omega) (by omega)]
    have hc : code / 64 * 64 + code % 64 = code := by omega
    simp only [hc, List.nil_append, List.singleton_append]
  split
  · next h h' =>
    obtain ⟨low, high, hf, hl, hh⟩ := first_three (by omega) h' hs
    rw [List.cons_append, List.cons_append, List.singleton_append, run_cons, step_between (by omega), hf, run_cons,
      step_tail 1 _ hl hh, run_cons, step_tail 0 _ (by omega) (by omega)]
    have hc : (code / 4096 * 64 + code / 64 % 64) * 64 + code % 64 = code := by omega
    simp only [hc, List.nil_append, List.singleton_append]
  · next h =>
    obtain ⟨low, high, hf, hl, hh⟩ := first_four (by omega) hs
    unfold IsScalar at hs
    rw [List.cons_append, List.cons_append, List.cons_append, List.singleton_append, run_cons,
      step_between (by omega), hf, run_cons, step_tail 2 _ hl hh, run_cons, step_tail 1 _ (by omega) (by omega),
      run_cons, step_tail 0 _ (by omega) (by omega)]
    have hc : ((code / 262144 * 64 + code / 4096 % 64) * 64 + code / 64 % 64) * 64 + code % 64 = code := by omega
    simp only [hc, List.nil_append, List.singleton_append]

/-! ## Texts -/

theorem encode_cons (c : Char) (text : List Char) : encode (c :: text) = encodeCode c.toNat ++ encode text := rfl

/-- **A text that was written is read back.** -/
theorem decode_encode (text : List Char) : decode (encode text) = text := by
  unfold decode
  induction text with
  | nil => rfl
  | cons c text ih => rw [encode_cons, run_encodeCode (isScalar_toNat c), ih, Char.ofNat_toNat]

theorem encodeCode_ne_nil (code : Nat) : encodeCode code ≠ [] := by
  unfold encodeCode
  split
  · exact List.cons_ne_nil _ _
  split
  · exact List.cons_ne_nil _ _
  split <;> exact List.cons_ne_nil _ _

/-- Only the empty text is written without octets. -/
theorem encode_eq_nil_iff {text : List Char} : encode text = [] ↔ text = [] := by
  cases text with
  | nil => exact iff_of_true rfl rfl
  | cons c text =>
    refine iff_of_false (fun h => ?_) (List.cons_ne_nil _ _)
    rw [encode_cons, List.append_eq_nil_iff] at h
    exact encodeCode_ne_nil _ h.1

end LanguageSessions.Text.Utf8
