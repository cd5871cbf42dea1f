import LanguageSessions.Proofs.Json.Numbers
import LanguageSessions.Proofs.Json.Strings

/-!
# Values survive being written and read

The text of a value is read as the value (`parse_print`), if no integer in it has too many digits and no object has
two members with one key. A value reads back (`ReadsBack`) with any rest of a text behind it that ends it, and with
fuel for each character of its own text; items and members are read one after the other on this ground.
-/

namespace LanguageSessions.Json

open Text

/-- A value that can be written: its integers have no more digits than can be read, and the members of its objects have
keys of their own. -/
inductive Writable : Json → Prop where
  | null : Writable .null
  | bool (b : Bool) : Writable (.bool b)
  | int (n : ℤ) (short : (natDigits n.natAbs).length ≤ Numeral.maxDigits) : Writable (.int n)
  | float (x : Binary64) : Writable (.float x)
  | string (s : String) : Writable (.string s)
  | array (items : List Json) (all : ∀ item ∈ items, Writable item) : Writable (.array items)
  | object (members : Members) (keys : (members.map Prod.fst).Nodup) (all : ∀ member ∈ members, Writable member.2) :
    Writable (.object members)

/-- The text of a value is read as the value, with fuel for its characters and whatever ends it behind it. -/
def ReadsBack (v : Json) : Prop :=
  ∀ fuel rest, v.write.length ≤ fuel → Ends rest → value fuel (v.write ++ rest) = .ok (v, rest)

/-! ## How texts begin -/

/-- A text begins like a number: with a digit, or with a minus and a digit. -/
def Numeric (text : List Char) : Prop :=
  ∃ (negative : Bool) (d : ℕ) (tail : List Char), d < 10 ∧
    text = (if negative then ['-'] else []) ++ digitChar d :: tail

theorem Numeric.append {text : List Char} (h : Numeric text) (rest : List Char) : Numeric (text ++ rest) := by
  obtain ⟨negative, d, tail, hd, rfl⟩ := h
  exact ⟨negative, d, tail ++ rest, hd, by rw [List.append_assoc, List.cons_append]⟩

theorem numeric_text {s : Spelling} (hs : s.WellFormed) (negative : Bool) :
    Numeric ((if negative then ['-'] else []) ++ s.text) := by
  obtain ⟨d, others, hw⟩ := List.exists_cons_of_ne_nil hs.whole.ne_nil
  refine ⟨negative, d, others.map digitChar ++ (s.fractionText ++ s.exponentText), ?_, ?_⟩
  · exact hs.whole.lt d (hw ▸ List.mem_cons_self)
  · rw [Spelling.text, hw, List.map_cons, List.cons_append]

theorem numeric_intDigits (n : ℤ) : Numeric (intDigits n) := by
  obtain ⟨s, hs, ht, -⟩ := exists_spelling_int n
  rw [ht]
  exact numeric_text hs _

theorem numeric_floatText (style : FloatStyle) (negative : Bool) (m : Magnitude) :
    Numeric ((Binary64.finite negative m).text style) := by
  obtain ⟨s, hs, -, ht, -⟩ := Binary64.exists_spelling style m
  rw [Binary64.text, ht]
  exact numeric_text hs negative

/-- The characters that numbers begin with. -/
theorem digitChar_begins : ∀ d < 10, isGap (digitChar d) = false ∧ digitChar d ≠ ']' ∧ digitChar d ≠ '"' ∧
    digitChar d ≠ '[' ∧ digitChar d ≠ '\x7b' ∧ (digitChar d == 'n') = false ∧ (digitChar d == 't') = false ∧
    (digitChar d == 'f') = false ∧ (digitChar d == 'N') = false ∧ (digitChar d == 'I') = false ∧
    (digitChar d == '-') = false := by decide

/-- No word begins like a number. -/
theorem takeWord_of_numeric {text : List Char} (h : Numeric text) : takeWord text = none := by
  obtain ⟨negative, d, tail, hd, rfl⟩ := h
  obtain ⟨-, -, -, -, -, h1, h2, h3, h4, h5, h6⟩ := digitChar_begins d hd
  cases negative <;> simp [takeWord, words, List.find?, List.isPrefixOf, BEq.comm (b := digitChar d), *]

theorem Numeric.exists_head {text : List Char} (h : Numeric text) :
    ∃ c tail, text = c :: tail ∧ isGap c = false ∧ c ≠ ']' ∧ c ≠ '"' ∧ c ≠ '[' ∧ c ≠ '\x7b' := by
  obtain ⟨negative, d, tail, hd, rfl⟩ := h
  obtain ⟨h1, h2, h3, h4, h5, -⟩ := digitChar_begins d hd
  cases negative with
  | true => exact ⟨'-', digitChar d :: tail, rfl, by decide⟩
  | false => exact ⟨digitChar d, tail, rfl, h1, h2, h3, h4, h5⟩

/-- The text of a value begins with a character that is neither a gap nor the end of an array. -/
theorem exists_head (v : Json) : ∃ c tail, v.write = c :: tail ∧ isGap c = false ∧ c ≠ ']' := by
  have hnumeric : ∀ {text}, Numeric text → ∃ c tail, text = c :: tail ∧ isGap c = false ∧ c ≠ ']' := fun h => by
    obtain ⟨c, tail, ht, hg, hc, -⟩ := h.exists_head
    exact ⟨c, tail, ht, hg, hc⟩
  cases v with
  | null => exact ⟨'n', _, rfl, by decide⟩
  | bool b =>
    cases b with
    | false => exact ⟨'f', _, rfl, by decide⟩
    | true => exact ⟨'t', _, rfl, by decide⟩
  | int n => exact hnumeric (numeric_intDigits n)
  | float x =>
    cases x with
    | finite negative m => exact hnumeric (numeric_floatText _ negative m)
    | infinite negative =>
      cases negative with
      | false => exact ⟨'I', _, rfl, by decide⟩
      | true => exact ⟨'-', _, rfl, by decide⟩
    | nan => exact ⟨'N', _, rfl, by decide⟩
  | string s => exact ⟨'"', _, rfl, by decide⟩
  | array items => exact ⟨'[', _, rfl, by decide⟩
  | object members => exact ⟨'\x7b', _, rfl, by decide⟩

theorem skipGap_cons {c : Char} (h : isGap c = false) (rest : List Char) : skipGap (c :: rest) = c :: rest := by
  rw [skipGap, List.dropWhile_cons, h]
  rfl

theorem skipGap_blank (rest : List Char) : skipGap (' ' :: rest) = skipGap rest := rfl

/-- There is no gap in front of a value. -/
theorem skipGap_write (v : Json) (rest : List Char) : skipGap (v.write ++ rest) = v.write ++ rest := by
  obtain ⟨c, tail, hv, hc, -⟩ := v.exists_head
  rw [hv, List.cons_append, skipGap_cons hc]

/-! ## Numbers and words -/

/-- What begins like a number is read as a number. -/
theorem value_of_numeric {text : List Char} (h : Numeric text) (fuel : ℕ) : value (fuel + 1) text = number text := by
  have hword := takeWord_of_numeric h
  obtain ⟨c, tail, rfl, -, -, hquote, hbracket, hbrace⟩ := h.exists_head
  rw [value, hword]
  · exact fun rest heq => hquote (List.cons.inj heq).1
  · exact fun rest heq => hbracket (List.cons.inj heq).1
  · exact fun rest heq => hbrace (List.cons.inj heq).1

theorem readsBack_of_numeric {v : Json} (h : Numeric v.write)
    (hn : ∀ rest, Ends rest → number (v.write ++ rest) = .ok (v, rest)) : ReadsBack v := by
  intro fuel rest hf hr
  obtain ⟨c, tail, hv, -⟩ := h.exists_head
  rw [hv, List.length_cons] at hf
  obtain ⟨fuel, rfl⟩ := Nat.exists_eq_add_of_le' (Nat.le_of_add_left_le hf)
  rw [value_of_numeric (h.append rest), hn rest hr]

/-- A word is read as what it stands for. -/
theorem readsBack_of_word {v : Json} {c : Char} {tail : List Char} (hv : v.write = c :: tail)
    (hc : c ≠ '"' ∧ c ≠ '[' ∧ c ≠ '\x7b') (hw : ∀ rest, takeWord (v.write ++ rest) = some (v, rest)) : ReadsBack v := by
  intro fuel rest hf _
  have hword := hw rest
  rw [hv, List.cons_append] at hword
  rw [hv, List.length_cons] at hf
  obtain ⟨fuel, rfl⟩ := Nat.exists_eq_add_of_le' (Nat.le_of_add_left_le hf)
  rw [hv, List.cons_append, value, hword]
  · exact fun rest heq => hc.1 (List.cons.inj heq).1
  · exact fun rest heq => hc.2.1 (List.cons.inj heq).1
  · exact fun rest heq => hc.2.2 (List.cons.inj heq).1

theorem readsBack_null : ReadsBack .null := readsBack_of_word rfl (by decide) fun _ => rfl

theorem readsBack_bool : ∀ b, ReadsBack (.bool b)
  | true => readsBack_of_word rfl (by decide) fun _ => rfl
  | false => readsBack_of_word rfl (by decide) fun _ => rfl

theorem readsBack_int {n : ℤ} (hn : (natDigits n.natAbs).length ≤ Numeral.maxDigits) : ReadsBack (.int n) :=
  readsBack_of_numeric (numeric_intDigits n) fun _ hr => number_intDigits hn hr

theorem readsBack_float : ∀ x, ReadsBack (.float x)
  | .finite negative m =>
    readsBack_of_numeric (numeric_floatText floatStyle negative m) fun _ hr => number_floatText floatStyle negative m hr
  | .infinite false => readsBack_of_word rfl (by decide) fun _ => rfl
  | .infinite true => readsBack_of_word rfl (by decide) fun _ => rfl
  | .nan => readsBack_of_word rfl (by decide) fun _ => rfl

/-! ## Strings -/

/-- A string is read up to its closing quote, with fuel for the rest of the text. -/
theorem characters_quote (s : String) (rest : List Char) :
    characters ((s.toList.flatMap escape ++ '"' :: rest).length + 1) (s.toList.flatMap escape ++ '"' :: rest) =
      .ok (s.toList, rest) := by
  refine characters_escape ?_ rest
  have := length_le_flatMap_escape s.toList
  rw [List.length_append]
  omega

theorem readsBack_string (s : String) : ReadsBack (.string s) := by
  intro fuel rest hf hr
  have htext : (Json.string s).write ++ rest = '"' :: (s.toList.flatMap escape ++ '"' :: rest) := by
    rw [write, quote, List.cons_append, List.cons_append, List.append_assoc, List.singleton_append]
  obtain ⟨fuel, rfl⟩ : ∃ f, fuel = f + 1 := Nat.exists_eq_add_of_le' (le_trans (Nat.succ_le_succ (Nat.zero_le _)) hf)
  rw [htext, value, characters_quote]
  dsimp only
  rw [String.ofList_toList]

/-! ## Arrays -/

theorem ends_comma (rest : List Char) : Ends (',' :: rest) := fun _ hc => Or.inl (Option.some.inj hc).symm

theorem ends_bracket (rest : List Char) : Ends (']' :: rest) := fun _ hc => Or.inr (Or.inl (Option.some.inj hc).symm)

theorem ends_brace (rest : List Char) : Ends ('\x7d' :: rest) := fun _ hc => Or.inr (Or.inr (Option.some.inj hc).symm)

theorem writeItems_cons_cons (item next : Json) (items : List Json) :
    writeItems (item :: next :: items) = item.write ++ ',' :: ' ' :: writeItems (next :: items) := by
  rw [writeItems]
  exact nofun

/-- The text of items begins like the one of the first of them. -/
theorem exists_head_items (item : Json) (items : List Json) :
    ∃ c tail, writeItems (item :: items) = c :: tail ∧ isGap c = false ∧ c ≠ ']' := by
  obtain ⟨c, tail, hv, hc⟩ := item.exists_head
  cases items with
  | nil => exact ⟨c, tail, by rw [writeItems, hv], hc⟩
  | cons next items => exact ⟨c, _, by rw [writeItems_cons_cons, hv, List.cons_append], hc⟩

theorem elements_of_comma {fuel : ℕ} {text rest : List Char} {item : Json}
    (h : value fuel text = .ok (item, ',' :: rest)) : elements (fuel + 1) text =
      match elements fuel (skipGap rest) with
      | .ok (items, rest) => .ok (item :: items, rest)
      | .error e => .error e := by
  rw [elements, h]
  rfl

/-- The items of an array are read, each after the comma behind the one before it. -/
theorem elements_writeItems : ∀ {items : List Json}, items ≠ [] → (∀ item ∈ items, ReadsBack item) →
    ∀ fuel rest, (writeItems items).length < fuel →
      elements fuel (writeItems items ++ ']' :: rest) = .ok (items, rest)
  | [], hne, _ => absurd rfl hne
  | [item], _, h => by
    intro fuel rest hf
    obtain ⟨fuel, rfl⟩ := Nat.exists_eq_add_of_lt hf
    have hitem := h item List.mem_cons_self
    rw [writeItems] at *
    rw [elements, hitem _ _ (by omega) (ends_bracket rest)]
    rfl
  | item :: next :: items, _, h => by
    intro fuel rest hf
    have hitem := h item List.mem_cons_self
    have ih := elements_writeItems (List.cons_ne_nil next items) fun item hi => h item (List.mem_cons_of_mem _ hi)
    obtain ⟨c, tail, hnext, hc, -⟩ := exists_head_items next items
    obtain ⟨fuel, rfl⟩ := Nat.exists_eq_succ_of_ne_zero (Nat.ne_zero_of_lt hf)
    rw [writeItems_cons_cons, List.length_append, List.length_cons, List.length_cons] at hf
    have htail := ih fuel rest (by omega)
    rw [writeItems_cons_cons, List.append_assoc, List.cons_append, List.cons_append,
      elements_of_comma (hitem _ _ (by omega) (ends_comma _)), skipGap_blank, hnext, List.cons_append, skipGap_cons hc,
      ← List.cons_append, ← hnext, htail]

theorem readsBack_array {items : List Json} (h : ∀ item ∈ items, ReadsBack item) : ReadsBack (.array items) := by
  intro fuel rest hf _
  rw [write, List.length_append, List.length_cons, List.length_singleton] at hf
  obtain ⟨fuel, rfl⟩ := Nat.exists_eq_succ_of_ne_zero (Nat.ne_zero_of_lt hf)
  rw [write, List.append_assoc, List.cons_append, List.singleton_append, value]
  cases items with
  | nil => rfl
  | cons item items =>
    obtain ⟨c, tail, hitems, hc, hbracket⟩ := exists_head_items item items
    have hread := elements_writeItems (List.cons_ne_nil item items) h fuel rest (by omega)
    rw [hitems, List.cons_append] at hread
    rw [hitems, List.cons_append, skipGap_cons hc]
    split
    · next heq => exact absurd (List.cons.inj heq).1 hbracket
    · rw [hread]

/-! ## Objects -/

theorem writeMembers_cons_cons (key : String) (item : Json) (next : String × Json) (members : Members) :
    writeMembers ((key, item) :: next :: members) =
      quote key ++ ':' :: ' ' :: item.write ++ ',' :: ' ' :: writeMembers (next :: members) := by
  rw [writeMembers]
  exact nofun

/-- The text of members begins with the quote of the first key. -/
theorem exists_head_members (member : String × Json) (members : Members) :
    ∃ tail, writeMembers (member :: members) = '"' :: tail := by
  cases members with
  | nil => exact ⟨_, by rw [writeMembers]; rfl⟩
  | cons next members => exact ⟨_, by rw [writeMembers_cons_cons]; rfl⟩

/-- A member with a new key is put at the end. -/
theorem set_of_not_mem {members : Members} {key : String} (h : key ∉ members.map Prod.fst) (item : Json) :
    Members.set members key item = members ++ [(key, item)] := by
  induction members with
  | nil => rfl
  | cons member members ih =>
    rw [List.map_cons, List.mem_cons, not_or] at h
    have hne : (member.1 == key) = false := beq_false_of_ne (Ne.symm h.1)
    rw [Members.set, hne, ih h.2]
    rfl

theorem fields_of_colon {fuel : ℕ} {before : Members} {text key rest : List Char}
    (h : characters (text.length + 1) text = .ok (key, ':' :: rest)) : fields (fuel + 1) before ('"' :: text) =
      match value fuel (skipGap rest) with
      | .error e => .error e
      | .ok (item, rest) =>
        match skipGap rest with
        | ',' :: rest => fields fuel (before.set (String.ofList key) item) (skipGap rest)
        | '\x7d' :: rest => .ok (before.set (String.ofList key) item, rest)
        | _ => .error .notJson := by
  rw [fields, h]
  rfl

/-- A member is read, and put behind those that were read before. -/
theorem fields_member {key : String} {item : Json} (h : ReadsBack item) {before : Members}
    (hkey : key ∉ before.map Prod.fst) (fuel : ℕ) (hf : item.write.length ≤ fuel) {rest : List Char} (hr : Ends rest) :
    fields (fuel + 1) before (quote key ++ ':' :: ' ' :: item.write ++ rest) =
      match skipGap rest with
      | ',' :: rest => fields fuel (before ++ [(key, item)]) (skipGap rest)
      | '\x7d' :: rest => .ok (before ++ [(key, item)], rest)
      | _ => .error .notJson := by
  have htext : quote key ++ ':' :: ' ' :: item.write ++ rest =
      '"' :: (key.toList.flatMap escape ++ '"' :: ':' :: ' ' :: (item.write ++ rest)) := by
    simp only [quote, List.cons_append, List.append_assoc, List.nil_append]
  rw [htext, fields_of_colon (characters_quote key _), skipGap_blank, skipGap_write, h fuel rest hf hr]
  dsimp only
  rw [String.ofList_toList, set_of_not_mem hkey]

/-- Where no key occurs twice, a key is none of those before it. -/
theorem key_not_mem_of_nodup {before members : Members} {key : String} {item : Json}
    (hkeys : ((before ++ (key, item) :: members).map Prod.fst).Nodup) : key ∉ before.map Prod.fst := by
  rw [List.map_append, List.nodup_append] at hkeys
  exact fun hk => hkeys.2.2 key hk key List.mem_cons_self rfl

/-- The members of an object are read, each after the comma behind the one before it, and put behind those that were
read before. -/
theorem fields_writeMembers : ∀ {members : Members}, members ≠ [] → (∀ member ∈ members, ReadsBack member.2) →
    ∀ before fuel rest, ((before ++ members).map Prod.fst).Nodup → (writeMembers members).length < fuel →
      fields fuel before (writeMembers members ++ '\x7d' :: rest) = .ok (before ++ members, rest)
  | [], hne, _ => absurd rfl hne
  | [(key, item)], _, h => by
    intro before fuel rest hkeys hf
    have hitem : ReadsBack item := h (key, item) List.mem_cons_self
    have hkey : key ∉ before.map Prod.fst := key_not_mem_of_nodup hkeys
    obtain ⟨fuel, rfl⟩ := Nat.exists_eq_succ_of_ne_zero (Nat.ne_zero_of_lt hf)
    rw [writeMembers, List.length_append, List.length_cons, List.length_cons] at hf
    rw [writeMembers, fields_member hitem hkey fuel (by omega) (ends_brace rest)]
    rfl
  | (key, item) :: next :: members, _, h => by
    intro before fuel rest hkeys hf
    have hitem : ReadsBack item := h (key, item) List.mem_cons_self
    have hkey : key ∉ before.map Prod.fst := key_not_mem_of_nodup hkeys
    have ih := fields_writeMembers (List.cons_ne_nil next members) fun member hm => h member (List.mem_cons_of_mem _ hm)
    obtain ⟨tail, hnext⟩ := exists_head_members next members
    obtain ⟨fuel, rfl⟩ := Nat.exists_eq_succ_of_ne_zero (Nat.ne_zero_of_lt hf)
    rw [writeMembers_cons_cons] at hf ⊢
    simp only [List.length_append, List.length_cons] at hf
    have htail := ih (before ++ [(key, item)]) fuel rest (by rwa [List.append_assoc]) (by omega)
    rw [List.append_assoc, List.cons_append, fields_member hitem hkey fuel (by omega) (ends_comma _)]
    change fields fuel (before ++ [(key, item)]) (skipGap (' ' :: writeMembers (next :: members) ++ '\x7d' :: rest)) = _
    rw [List.cons_append, skipGap_blank, hnext, List.cons_append, skipGap_cons rfl, ← List.cons_append, ← hnext, htail,
      List.append_assoc, List.singleton_append]

theorem readsBack_object {members : Members} (hkeys : (members.map Prod.fst).Nodup)
    (h : ∀ member ∈ members, ReadsBack member.2) : ReadsBack (.object members) := by
  intro fuel rest hf _
  rw [write, List.length_append, List.length_cons, List.length_singleton] at hf
  obtain ⟨fuel, rfl⟩ := Nat.exists_eq_succ_of_ne_zero (Nat.ne_zero_of_lt hf)
  rw [write, List.append_assoc, List.cons_append, List.singleton_append, value]
  cases members with
  | nil => rfl
  | cons member members =>
    obtain ⟨tail, hmembers⟩ := exists_head_members member members
    have hread := fields_writeMembers (List.cons_ne_nil member members) h [] fuel rest hkeys (by omega)
    rw [hmembers, List.cons_append] at hread
    rw [hmembers, List.cons_append, skipGap_cons rfl]
    split
    · next heq => exact absurd (List.cons.inj heq).1 (by decide)
    · rw [hread, List.nil_append]

/-! ## All values -/

/-- **Every value that can be written is read back**, whatever ends it behind it. -/
theorem Writable.readsBack {v : Json} (h : Writable v) : ReadsBack v := by
  induction h with
  | null => exact readsBack_null
  | bool b => exact readsBack_bool b
  | int n short => exact readsBack_int short
  | float x => exact readsBack_float x
  | string s => exact readsBack_string s
  | array items _ ih => exact readsBack_array ih
  | object members keys _ ih => exact readsBack_object keys ih

/-- **The text of a value is read as the value.** -/
theorem parse_print {v : Json} (h : Writable v) : parse v.print = .ok v := by
  have hends : Ends [] := nofun
  have hread := h.readsBack (v.write.length + 1) [] (Nat.le_succ _) hends
  have hgap := v.skipGap_write []
  rw [List.append_nil] at hread hgap
  rw [parse, print, String.toList_ofList, parseList, hgap, hread]
  rfl

/-! ## ASCII -/

theorem toNat_digitChar : ∀ d < 10, (digitChar d).toNat < 0x80 := by decide

theorem ascii_digits {values : List ℕ} (h : ∀ d ∈ values, d < 10) : Ascii (values.map digitChar) := by
  intro c hc
  obtain ⟨d, hd, rfl⟩ := List.mem_map.1 hc
  exact toNat_digitChar d (h d hd)

theorem ascii_sign (negative : Bool) : Ascii (if negative then ['-'] else []) := by
  cases negative <;> exact .of_all (by decide)

theorem ascii_text {s : Spelling} (hs : s.WellFormed) : Ascii s.text := by
  refine .append (ascii_digits hs.whole.lt) (.append ?_ ?_)
  · unfold Spelling.fractionText
    split
    · nofun
    · exact .cons (by decide) (ascii_digits hs.fraction)
  · unfold Spelling.exponentText
    split
    · nofun
    · next negative digits he =>
      refine .cons (by decide) (.cons ?_ (ascii_digits (hs.exponent _ _ he).2))
      cases negative <;> decide

theorem ascii_floatText (x : Binary64) : Ascii (x.text floatStyle) := by
  cases x with
  | finite negative m =>
    obtain ⟨s, hs, -, ht, -⟩ := Binary64.exists_spelling floatStyle m
    rw [Binary64.text, ht]
    exact (ascii_sign negative).append (ascii_text hs)
  | infinite negative => cases negative <;> exact .of_all (by decide)
  | nan => exact .of_all (by decide)

theorem ascii_intDigits (n : ℤ) : Ascii (intDigits n) := by
  obtain ⟨s, hs, ht, -⟩ := exists_spelling_int n
  rw [ht]
  exact (ascii_sign _).append (ascii_text hs)

theorem ascii_comma {text : List Char} (h : Ascii text) : Ascii (',' :: ' ' :: text) := .cons (by decide) (.cons (by decide) h)

theorem ascii_member {key : String} {text : List Char} (h : Ascii text) : Ascii (quote key ++ ':' :: ' ' :: text) :=
  (ascii_quote key).append (.cons (by decide) (.cons (by decide) h))

theorem ascii_bracketed {front back : Char} {text : List Char} (hf : front.toNat < 0x80) (hb : back.toNat < 0x80)
    (h : Ascii text) : Ascii (front :: text ++ [back]) := (Ascii.cons hf h).append (.cons hb nofun)

mutual

/-- **The text of a value is ASCII.** -/
theorem ascii_write : ∀ v : Json, Ascii v.write
  | .null => .of_all (by decide)
  | .bool true => .of_all (by decide)
  | .bool false => .of_all (by decide)
  | .int n => ascii_intDigits n
  | .float x => ascii_floatText x
  | .string s => ascii_quote s
  | .array items => by
    rw [write]
    exact ascii_bracketed (by decide) (by decide) (ascii_writeItems items)
  | .object members => by
    rw [write]
    exact ascii_bracketed (by decide) (by decide) (ascii_writeMembers members)

theorem ascii_writeItems : ∀ items : List Json, Ascii (writeItems items)
  | [] => nofun
  | [item] => ascii_write item
  | item :: next :: items => by
    rw [writeItems_cons_cons]
    exact (ascii_write item).append (ascii_comma (ascii_writeItems (next :: items)))

theorem ascii_writeMembers : ∀ members : Members, Ascii (writeMembers members)
  | [] => nofun
  | [(_, item)] => ascii_member (ascii_write item)
  | (key, item) :: next :: members => by
    rw [writeMembers_cons_cons]
    exact (ascii_member (ascii_write item)).append (ascii_comma (ascii_writeMembers (next :: members)))

end

end LanguageSessions.Json
