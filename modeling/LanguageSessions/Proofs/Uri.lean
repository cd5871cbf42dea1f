import LanguageSessions.Proofs.Text.Utf8
import LanguageSessions.Uri

/-!
# The trip of a path through a URI

Each octet of a text is written as itself, or as a percent sign with two digits; either way the reader takes it back and
goes on from there (`decodeFrom_encodeOctet`). So a text is read back (`decode_encode`), and a path without a scheme
comes back with slashes in place of backslashes (`toPathList_ofPathList`). It comes back as it was if and only if it has
no backslash and no slash in front of a drive (`toPathList_ofPathList_eq_self_iff`). The path that comes back has the
URI it came from, unless it lost a slash that it does not get back (`ofPathList_toPathList_ofPathList_iff`). So paths
from the root and paths on a drive survive the trip (`path_survives_its_uri`).
-/

namespace LanguageSessions.Uri

open Text

/-! ## Octets -/

theorem hexValue?_upperHexChar : ∀ d < 16, hexValue? (upperHexChar d) = some d := by decide

/-- The two digits of an octet are read as that octet. -/
theorem octet?_upperHexChar (octet : UInt8) :
    octet? (upperHexChar (octet.toNat / 16 % 16)) (upperHexChar (octet.toNat % 16)) = some octet := by
  have hlt : octet.toNat < 256 := octet.toNat_lt
  have hvalue : octet.toNat / 16 % 16 * 16 + octet.toNat % 16 = octet.toNat := by omega
  rw [octet?, hexValue?_upperHexChar _ (by omega), hexValue?_upperHexChar _ (by omega)]
  change some (UInt8.ofNat (octet.toNat / 16 % 16 * 16 + octet.toNat % 16)) = some octet
  rw [hvalue, UInt8.ofNat_toNat]

/-- An octet that stands for itself is one of ASCII. -/
theorem toNat_lt_of_isSafe {octet : UInt8} (h : isSafe octet = true) : octet.toNat < 0x80 := by
  unfold isSafe at h
  exact UInt8.lt_iff_toNat_lt.1 (of_decide_eq_true (Bool.and_eq_true_iff.1 h).1)

theorem toNat_ofNat_of_ascii : ∀ n < 0x80, (Char.ofNat n).toNat = n := by decide

/-- A character of ASCII other than the percent sign is read as its octet. -/
theorem decodeFrom_cons (state : Utf8.State) {c : Char} (rest : List Char) (ascii : c.toNat < 0x80) (hne : c ≠ '%') :
    decodeFrom state (c :: rest) =
      (Utf8.step state (UInt8.ofNat c.toNat)).1 ++ decodeFrom (Utf8.step state (UInt8.ofNat c.toNat)).2 rest := by
  rw [decodeFrom]
  · rw [if_pos ascii]
  · rintro high low tail heq
    exact absurd heq hne

/-- **An octet that was written is read back**, from wherever the reader stands. -/
theorem decodeFrom_encodeOctet (state : Utf8.State) (octet : UInt8) (rest : List Char) :
    decodeFrom state (encodeOctet octet ++ rest) =
      (Utf8.step state octet).1 ++ decodeFrom (Utf8.step state octet).2 rest := by
  unfold encodeOctet
  split
  · next safe =>
    have hlt := toNat_lt_of_isSafe safe
    have hcode := toNat_ofNat_of_ascii _ hlt
    have hne : Char.ofNat octet.toNat ≠ '%' := by
      intro heq
      have hoctet : octet = 0x25 := UInt8.toNat_inj.1 (by rw [← hcode, heq]; rfl)
      rw [hoctet] at safe
      exact absurd safe (by decide)
    rw [List.singleton_append, decodeFrom_cons state rest (by rw [hcode]; exact hlt) hne, hcode, UInt8.ofNat_toNat]
  · change decodeFrom state
      ('%' :: upperHexChar (octet.toNat / 16 % 16) :: upperHexChar (octet.toNat % 16) :: rest) = _
    rw [decodeFrom, octet?_upperHexChar]

/-- Octets that were written are read one after the other. -/
theorem decodeFrom_encodeOctets (octets : List UInt8) (state : Utf8.State) :
    decodeFrom state (octets.flatMap encodeOctet) = Utf8.run state octets := by
  induction octets generalizing state with
  | nil => rfl
  | cons octet octets ih => rw [List.flatMap_cons, decodeFrom_encodeOctet, ih, Utf8.run_cons]

/-- **A text that was written is read back.** -/
theorem decode_encode (text : List Char) : decode (encode text) = text := by
  rw [decode, encode, decodeFrom_encodeOctets]
  exact Utf8.decode_encode text

/-! ## Drives -/

theorem unrootDrive_of_hasDrive {path : List Char} (h : hasDrive path = true) : unrootDrive path = path := by
  unfold hasDrive at h
  split at h
  · next letter rest =>
    unfold unrootDrive
    split
    · next heq => cases heq
    · rfl
  · cases h

/-- Without a drive behind its slash a path keeps it. -/
theorem unrootDrive_eq_self {path : List Char}
    (h : ∀ letter rest, path = '/' :: letter :: ':' :: rest → isLetter letter = false) : unrootDrive path = path := by
  unfold unrootDrive
  split
  · next letter rest => rw [h letter rest rfl, if_neg Bool.false_ne_true]
  · rfl

/-- The slash that was put in front of a drive is taken away. -/
theorem unrootDrive_rootDrive (path : List Char) :
    unrootDrive (rootDrive path) = if hasDrive path then path else unrootDrive path := by
  unfold rootDrive
  split
  · next h =>
    unfold hasDrive at h
    split at h
    · next letter rest => rw [unrootDrive, if_pos h]
    · cases h
  · rfl

theorem mem_of_mem_unrootDrive {path : List Char} {c : Char} (h : c ∈ unrootDrive path) : c ∈ path := by
  unfold unrootDrive at h
  split at h
  · split at h
    · exact List.mem_cons_of_mem _ h
    · exact h
  · exact h

/-! ## Paths -/

theorem not_mem_forwardSlashes (path : List Char) : '\\' ∉ Path.forwardSlashes path := by
  intro h
  obtain ⟨c, -, hc⟩ := List.mem_map.1 h
  split at hc
  · cases hc
  · next hne => exact hne hc

theorem forwardSlashes_eq_self {path : List Char} (h : '\\' ∉ path) : Path.forwardSlashes path = path := by
  have hsame : ∀ c ∈ path, (if c = '\\' then '/' else c) = c := by
    intro c hc
    refine if_neg fun heq => ?_
    exact h (heq ▸ hc)
  exact (List.map_congr_left hsame).trans (List.map_id path)

theorem startsWith_append (start text : List Char) : startsWith start (start ++ text) = true :=
  List.isPrefixOf_iff_prefix.2 (List.prefix_append _ _)

/-- **A path comes back with slashes in place of backslashes**, and without a slash in front of a drive. -/
theorem toPathList_ofPathList {path : List Char} (plain : hasScheme path = false) :
    toPathList (ofPathList path) = unrootDrive (rootDrive (Path.forwardSlashes path)) := by
  rw [ofPathList, plain, if_neg Bool.false_ne_true, toPathList, startsWith_append, if_pos rfl, List.drop_left,
    decode_encode]

/-- A path comes back as it was if and only if it has no backslash, and no slash in front of a drive. -/
theorem toPathList_ofPathList_eq_self_iff {path : List Char} (plain : hasScheme path = false) :
    toPathList (ofPathList path) = path ↔ '\\' ∉ path ∧ unrootDrive path = path := by
  rw [toPathList_ofPathList plain, unrootDrive_rootDrive]
  constructor
  · intro h
    have hslashes : '\\' ∉ path := by
      intro hm
      rw [← h] at hm
      refine not_mem_forwardSlashes path ?_
      split at hm
      · exact hm
      · exact mem_of_mem_unrootDrive hm
    rw [forwardSlashes_eq_self hslashes] at h
    refine ⟨hslashes, ?_⟩
    split at h
    · next drive => exact unrootDrive_of_hasDrive drive
    · exact h
  · rintro ⟨hslashes, hroot⟩
    rw [forwardSlashes_eq_self hslashes]
    split
    · rfl
    · exact hroot

/-- The same of texts. -/
theorem toPath_ofPath_eq_self_iff {path : String} (plain : hasScheme path.toList = false) :
    toPath (ofPath path) = path ↔ '\\' ∉ path.toList ∧ unrootDrive path.toList = path.toList := by
  rw [← toPathList_ofPathList_eq_self_iff plain, toPath, ofPath, String.toList_ofList]
  constructor
  · intro h
    have hlist := congrArg String.toList h
    rwa [String.toList_ofList] at hlist
  · intro h
    rw [h, String.ofList_toList]

/-! ## The URI of the path that comes back -/

/-- Whether a path loses a slash for good: one in front of a letter and a colon that no slash follows. -/
def LosesSlash (path : List Char) : Prop :=
  ∃ letter rest, isLetter letter = true ∧ path = '/' :: letter :: ':' :: rest ∧ rest.head? ≠ some '/'

theorem not_hasScheme_drive (letter : Char) (rest : List Char) : hasScheme (letter :: ':' :: rest) = false := by
  have hcolon : isSchemeChar ':' = false := by decide
  simp [hasScheme, hcolon]

/-- A path has a scheme or has none, whichever way its slashes lean. -/
theorem hasScheme_forwardSlashes (path : List Char) : hasScheme (Path.forwardSlashes path) = hasScheme path := by
  have hletter (c : Char) : isLetter (if c = '\\' then '/' else c) = isLetter c := by
    split
    · next h => subst h; decide
    · rfl
  have hchar (c : Char) : isSchemeChar (if c = '\\' then '/' else c) = isSchemeChar c := by
    split
    · next h => subst h; decide
    · rfl
  have hcolon (c : Char) : ((if c = '\\' then '/' else c) = ':') = (c = ':') := by
    split
    · next h => subst h; decide
    · rfl
  match path with
  | [] => rfl
  | [_] => rfl
  | first :: second :: rest =>
    have hrest : (isSchemeChar ∘ fun c => if c = '\\' then '/' else c) = isSchemeChar := funext hchar
    rw [Path.forwardSlashes, List.map_cons, List.map_cons, hasScheme, hasScheme, hletter, hchar, List.dropWhile_map,
      hrest, List.head?_map, Bool.eq_iff_iff]
    simp only [Bool.and_eq_true, beq_iff_eq, Option.map_eq_some_iff, hcolon, exists_eq_right]

theorem encode_injective {text other : List Char} (h : encode text = encode other) : text = other := by
  rw [← decode_encode text, h, decode_encode]

theorem ofPathList_of_plain {path : List Char} (plain : hasScheme path = false) :
    ofPathList path = fileScheme ++ encode (rootDrive (Path.forwardSlashes path)) := by
  rw [ofPathList, plain, if_neg Bool.false_ne_true]

theorem rootDrive_slash (rest : List Char) : rootDrive ('/' :: rest) = '/' :: rest := by
  have hslash : hasDrive ('/' :: rest) = false := by
    unfold hasDrive
    split
    · next heq =>
      cases heq
      decide
    · rfl
  rw [rootDrive, hslash, if_neg Bool.false_ne_true]

/-- A letter and a colon get a slash in front if there is one behind them. -/
theorem rootDrive_eq_cons_iff {letter : Char} (hletter : isLetter letter = true) (rest : List Char) :
    rootDrive (letter :: ':' :: rest) = '/' :: letter :: ':' :: rest ↔ rest.head? = some '/' := by
  unfold rootDrive hasDrive
  split
  · next heq =>
    cases heq
    simp [hletter]
  · next hne =>
    refine iff_of_false (fun h => List.cons_ne_self _ _ h.symm) fun h => ?_
    obtain ⟨tail, rfl⟩ := List.head?_eq_some_iff.1 h
    exact hne _ _ rfl

/-- A path that went through a URI is as it was, or has lost the slash in front of a letter and a colon. -/
theorem unrootDrive_rootDrive_cases (path : List Char) :
    (unrootDrive (rootDrive path) = path ∧ ¬ LosesSlash path) ∨ ∃ letter rest, isLetter letter = true ∧
      path = '/' :: letter :: ':' :: rest ∧ unrootDrive (rootDrive path) = letter :: ':' :: rest := by
  by_cases h : ∃ letter rest, isLetter letter = true ∧ path = '/' :: letter :: ':' :: rest
  · obtain ⟨letter, rest, hletter, rfl⟩ := h
    refine .inr ⟨letter, rest, hletter, rfl, ?_⟩
    rw [rootDrive_slash, unrootDrive, if_pos hletter]
  · have kept : ¬ LosesSlash path := fun ⟨letter, rest, hletter, heq, _⟩ => h ⟨letter, rest, hletter, heq⟩
    have hsame : unrootDrive path = path := unrootDrive_eq_self fun letter rest heq =>
      Bool.eq_false_iff.2 fun hletter => h ⟨letter, rest, hletter, heq⟩
    refine .inl ⟨?_, kept⟩
    rw [unrootDrive_rootDrive, hsame, ite_self]

/-- **A path comes back with the URI it came from**, unless a slash is lost on the way. -/
theorem ofPathList_toPathList_ofPathList_iff {path : List Char} (plain : hasScheme path = false) :
    ofPathList (toPathList (ofPathList path)) = ofPathList path ↔ ¬ LosesSlash (Path.forwardSlashes path) := by
  have clean : '\\' ∉ Path.forwardSlashes path := not_mem_forwardSlashes path
  have unschemed : hasScheme (Path.forwardSlashes path) = false := (hasScheme_forwardSlashes path).trans plain
  rw [toPathList_ofPathList plain, ofPathList_of_plain plain]
  rcases unrootDrive_rootDrive_cases (Path.forwardSlashes path) with
    ⟨hsame, kept⟩ | ⟨letter, rest, hletter, htext, hlost⟩
  · rw [hsame, ofPathList_of_plain unschemed, forwardSlashes_eq_self clean]
    exact iff_of_true rfl kept
  · have hback : '\\' ∉ letter :: ':' :: rest := fun h => clean (htext ▸ List.mem_cons_of_mem _ h)
    have hloses : LosesSlash ('/' :: letter :: ':' :: rest) ↔ rest.head? ≠ some '/' := by
      constructor
      · rintro ⟨_, _, -, heq, hhead⟩
        cases heq
        exact hhead
      · exact fun hhead => ⟨letter, rest, hletter, rfl, hhead⟩
    rw [hlost, htext, ofPathList_of_plain (not_hasScheme_drive letter rest), forwardSlashes_eq_self hback,
      rootDrive_slash, List.append_cancel_left_eq, hloses, Classical.not_not, ← rootDrive_eq_cons_iff hletter]
    exact ⟨encode_injective, fun h => h ▸ rfl⟩

/-- The same of texts. -/
theorem ofPath_toPath_ofPath_iff {path : String} (plain : hasScheme path.toList = false) :
    ofPath (toPath (ofPath path)) = ofPath path ↔ ¬ LosesSlash (Path.forwardSlashes path.toList) := by
  rw [← ofPathList_toPathList_ofPathList_iff plain, ofPath, ofPath, toPath, String.toList_ofList, String.toList_ofList]
  exact String.ofList_inj

/-- A lone letter with a colon gets another URI when it comes back. -/
example : ofPath "/C:a.py" = "file:///C:a.py" ∧ ofPath (toPath (ofPath "/C:a.py")) = "file://C:a.py" := by decide

/-! ## Paths that survive the trip -/

/-- A path from the root, written with slashes only, that has no drive behind its first slash. -/
structure IsRooted (path : List Char) : Prop where
  slash : path.head? = some '/'
  clean : '\\' ∉ path
  undriven : ∀ letter rest, path = '/' :: letter :: ':' :: rest → isLetter letter = false

/-- A path on a drive: a letter and a colon, and a slash or a backslash behind them. The letter may be any character. -/
def IsOnDrive (path : List Char) : Prop :=
  ∃ letter slash rest, (slash = '/' ∨ slash = '\\') ∧ path = letter :: ':' :: slash :: rest

theorem not_hasScheme_slash (rest : List Char) : hasScheme ('/' :: rest) = false := by
  cases rest with
  | nil => rfl
  | cons second rest =>
    have hslash : isLetter '/' = false := by decide
    simp [hasScheme, hslash]

theorem IsRooted.toPath_ofPath {path : String} (h : IsRooted path.toList) : toPath (ofPath path) = path := by
  obtain ⟨rest, hpath⟩ := List.head?_eq_some_iff.1 h.slash
  have plain : hasScheme path.toList = false := by rw [hpath, not_hasScheme_slash]
  exact (toPath_ofPath_eq_self_iff plain).2 ⟨h.clean, unrootDrive_eq_self h.undriven⟩

/-- The slash that a drive was given is taken away again, and no other one. -/
theorem unrootDrive_rootDrive_drive (letter : Char) (rest : List Char) :
    unrootDrive (rootDrive (letter :: ':' :: '/' :: rest)) = letter :: ':' :: '/' :: rest := by
  have hsame : unrootDrive (letter :: ':' :: '/' :: rest) = letter :: ':' :: '/' :: rest := by
    refine unrootDrive_eq_self fun other tail heq => ?_
    cases heq
  rw [unrootDrive_rootDrive, hsame, ite_self]

theorem IsOnDrive.toPath_ofPath {path : String} (h : IsOnDrive path.toList) :
    toPath (ofPath path) = String.ofList (Path.forwardSlashes path.toList) := by
  obtain ⟨letter, slash, rest, hslash, hpath⟩ := h
  have plain : hasScheme path.toList = false := by rw [hpath, not_hasScheme_drive]
  have hforward : Path.forwardSlashes path.toList =
      (if letter = '\\' then '/' else letter) :: ':' :: '/' :: Path.forwardSlashes rest := by
    rw [hpath]
    rcases hslash with rfl | rfl <;> rfl
  rw [toPath, ofPath, String.toList_ofList, toPathList_ofPathList plain, hforward, unrootDrive_rootDrive_drive]

/-- **Paths survive the trip through a URI.** A path from the root comes back as it was, so that different ones have
different URIs, and a path on a drive comes back with slashes in place of backslashes, whatever characters are in it. -/
theorem path_survives_its_uri (path : String) :
    (IsRooted path.toList → toPath (ofPath path) = path) ∧
    (IsRooted path.toList → ∀ other : String, IsRooted other.toList → ofPath path = ofPath other → path = other) ∧
    (IsOnDrive path.toList → toPath (ofPath path) = String.ofList (Path.forwardSlashes path.toList)) := by
  refine ⟨fun h => h.toPath_ofPath, fun h other hother huri => ?_, fun h => h.toPath_ofPath⟩
  calc path = toPath (ofPath path) := h.toPath_ofPath.symm
    _ = toPath (ofPath other) := congrArg toPath huri
    _ = other := hother.toPath_ofPath

/-- A name that looks encoded already, and one on a drive with a letter outside ASCII. -/
theorem rare_paths_survive :
    IsRooted "/w/50%25 é?#.py".toList ∧ toPath (ofPath "/w/50%25 é?#.py") = "/w/50%25 é?#.py" ∧
      ("/w/50% é?#.py" ≠ "/w/50%25 é?#.py" → ofPath "/w/50% é?#.py" ≠ ofPath "/w/50%25 é?#.py") ∧
      IsOnDrive "C:\\w\\é.py".toList ∧ toPath (ofPath "C:\\w\\é.py") = "C:/w/é.py" := by
  have encoded : IsRooted "/w/50%25 é?#.py".toList := by
    refine ⟨by decide, by decide, fun letter rest heq => ?_⟩
    cases heq
  have spelled : IsRooted "/w/50% é?#.py".toList := by
    refine ⟨by decide, by decide, fun letter rest heq => ?_⟩
    cases heq
  have drive : IsOnDrive "C:\\w\\é.py".toList := ⟨'C', '\\', _, Or.inr rfl, rfl⟩
  refine ⟨encoded, (path_survives_its_uri _).1 encoded, fun hne huri => hne ?_, drive,
    ((path_survives_its_uri _).2.2 drive).trans (by decide)⟩
  exact (path_survives_its_uri _).2.1 spelled _ encoded huri

end LanguageSessions.Uri
