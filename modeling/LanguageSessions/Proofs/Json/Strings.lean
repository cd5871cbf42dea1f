import LanguageSessions.Json.Parser
import LanguageSessions.Json.Printer
import LanguageSessions.Proofs.Text.Utf8

/-!
# Strings in JSON

A string is read as the characters that it was written of (`characters_escape`), each from its own escape
(`characters_escape_append`): itself, a short escape, the escape of one UTF-16 unit, or those of a pair of them.
-/

namespace LanguageSessions.Json

open Text

/-! ## Units -/

theorem hexValue?_hexChar : ∀ d < 16, hexValue? (hexChar d) = some d := by decide

theorem takeUnit_hexDigits {unit : Nat} (h : unit < 0x10000) (rest : List Char) :
    takeUnit (hexDigits 4 unit ++ rest) = some (unit, rest) := by
  have hdigit : ∀ n, hexValue? (hexChar (n % 16)) = some (n % 16) := fun n =>
    hexValue?_hexChar _ (Nat.mod_lt _ (by decide))
  change takeUnit (hexChar (unit / 16 / 16 / 16 % 16) :: hexChar (unit / 16 / 16 % 16) :: hexChar (unit / 16 % 16) ::
    hexChar (unit % 16) :: rest) = _
  simp only [takeUnit, hdigit, bind, Option.bind_some, pure, Option.some_inj, Prod.mk.injEq, and_true]
  omega

theorem takeLowHalf_unitEscape {unit : Nat} (h : 0xDC00 ≤ unit ∧ unit < 0xE000) (rest : List Char) :
    takeLowHalf (unitEscape unit ++ rest) = some (unit, rest) := by
  change takeLowHalf ('\\' :: 'u' :: (hexDigits 4 unit ++ rest)) = _
  rw [takeLowHalf, takeUnit_hexDigits (by omega)]
  exact if_pos h

/-- A character that is one unit. -/
theorem takeCharacter_of_lt {c : Char} (h : c.toNat < 0x10000) (rest : List Char) :
    takeCharacter c.toNat rest = (c, rest) := by
  have hs := Utf8.isScalar_toNat c
  unfold Utf8.IsScalar at hs
  rw [takeCharacter, if_neg (by omega), if_neg (by omega), Char.ofNat_toNat]

/-- A character that is a pair of units. -/
theorem takeCharacter_pair {c : Char} (h : 0x10000 ≤ c.toNat) (rest : List Char) :
    takeCharacter (0xD800 + (c.toNat - 0x10000) / 0x400)
      (unitEscape (0xDC00 + (c.toNat - 0x10000) % 0x400) ++ rest) = (c, rest) := by
  have hs := Utf8.isScalar_toNat c
  unfold Utf8.IsScalar at hs
  have hcode : 0x10000 + (0xD800 + (c.toNat - 0x10000) / 0x400 - 0xD800) * 0x400 +
      (0xDC00 + (c.toNat - 0x10000) % 0x400 - 0xDC00) = c.toNat := by omega
  rw [takeCharacter, if_pos (by omega), takeLowHalf_unitEscape (by omega)]
  dsimp only
  rw [hcode, Char.ofNat_toNat]

/-! ## Escapes -/

theorem takeEscape_unit {unit : Nat} (h : unit < 0x10000) (rest : List Char) :
    takeEscape ('u' :: (hexDigits 4 unit ++ rest)) = some (takeCharacter unit rest) := by
  rw [takeEscape, takeUnit_hexDigits h]
  rfl

theorem characters_backslash {fuel : Nat} {c : Char} {text rest : List Char} (h : takeEscape text = some (c, rest)) :
    characters (fuel + 1) ('\\' :: text) = consCharacter c (characters fuel rest) := by
  rw [characters, if_neg (by decide), if_pos rfl, h]

/-- **Each character is read from its own escape.** -/
theorem characters_escape_append (fuel : Nat) (c : Char) (rest : List Char) :
    characters (fuel + 1) (escape c ++ rest) = consCharacter c (characters fuel rest) := by
  fun_cases escape c
  case case8 hquote hbackslash _ _ _ _ _ hplain =>
    rw [List.singleton_append, characters, if_neg hquote, if_neg hbackslash, if_neg (by omega)]
  case case9 _ _ _ _ _ _ _ _ hunit =>
    refine characters_backslash ((takeEscape_unit hunit rest).trans ?_)
    rw [takeCharacter_of_lt hunit]
  case case10 _ _ _ _ _ _ _ _ hpair code =>
    have hs := Utf8.isScalar_toNat c
    unfold Utf8.IsScalar at hs
    have hunit : 0xD800 + code / 0x400 < 0x10000 := by omega
    rw [List.append_assoc]
    refine characters_backslash ((takeEscape_unit hunit _).trans ?_)
    rw [takeCharacter_pair (by omega)]
  -- the short escapes
  all_goals
    subst_vars
    exact characters_backslash rfl

theorem escape_ne_nil (c : Char) : escape c ≠ [] := by
  fun_cases escape c <;> nofun

/-- **A string is read as it was written**, whatever comes behind it. -/
theorem characters_escape {text : List Char} {fuel : Nat} (h : text.length < fuel) (rest : List Char) :
    characters fuel (text.flatMap escape ++ '"' :: rest) = .ok (text, rest) := by
  induction text generalizing fuel with
  | nil =>
    obtain ⟨fuel, rfl⟩ := Nat.exists_eq_add_of_lt h
    rw [List.flatMap_nil, List.nil_append, characters, if_pos rfl]
  | cons c text ih =>
    obtain ⟨fuel, rfl⟩ := Nat.exists_eq_add_of_lt h
    rw [List.flatMap_cons, List.append_assoc, characters_escape_append, ih (by simp only [List.length_cons]; omega)]
    rfl

theorem length_le_flatMap_escape (text : List Char) : text.length ≤ (text.flatMap escape).length := by
  induction text with
  | nil => exact Nat.le_refl 0
  | cons c text ih =>
    have hc := List.length_pos_iff.2 (escape_ne_nil c)
    rw [List.flatMap_cons, List.length_append, List.length_cons]
    omega

/-! ## ASCII -/

/-- A text of ASCII characters only. -/
def Ascii (text : List Char) : Prop := ∀ c ∈ text, c.toNat < 0x80

namespace Ascii

variable {c : Char} {text more : List Char}

theorem of_all (h : text.all (fun c => decide (c.toNat < 0x80)) = true) : Ascii text := fun c hc =>
  of_decide_eq_true (List.all_eq_true.1 h c hc)

theorem cons (hc : c.toNat < 0x80) (h : Ascii text) : Ascii (c :: text) := List.forall_mem_cons.2 ⟨hc, h⟩

theorem append (h : Ascii text) (h' : Ascii more) : Ascii (text ++ more) := List.forall_mem_append.2 ⟨h, h'⟩

end Ascii

theorem toNat_hexChar : ∀ d < 16, (hexChar d).toNat < 0x80 := by decide

theorem ascii_hexDigits (width n : Nat) : Ascii (hexDigits width n) := by
  induction width generalizing n with
  | zero => nofun
  | succ width ih => exact (ih _).append (.cons (toNat_hexChar _ (Nat.mod_lt _ (by decide))) nofun)

theorem ascii_unitEscape (unit : Nat) : Ascii (unitEscape unit) :=
  .cons (by decide) (.cons (by decide) (ascii_hexDigits 4 unit))

theorem ascii_escape (c : Char) : Ascii (escape c) := by
  fun_cases escape c with
  | case8 _ _ _ _ _ _ _ hplain => exact .cons (by omega) nofun
  | case9 => exact ascii_unitEscape _
  | case10 => exact (ascii_unitEscape _).append (ascii_unitEscape _)
  | _ => exact .of_all (by decide)

theorem ascii_quote (s : String) : Ascii (quote s) := by
  refine .append (.cons (by decide) fun c hc => ?_) (.cons (by decide) nofun)
  obtain ⟨d, -, hd⟩ := List.mem_flatMap.1 hc
  exact ascii_escape d c hd

end LanguageSessions.Json
