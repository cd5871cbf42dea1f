import LanguageSessions.Path
import Mathlib.Data.List.Basic

/-!
# Directories in normal form

A normal form is one slash or two, and behind them components that are neither empty nor dots, with slashes between them
(`normal_normalize`); it is kept by the normalization (`Normal.normalize`). One with a single slash is the topmost
directory or ends with another character than a slash (`Normal.topmost_or_ends`), so that being within it (`isWithin`)
is to be it or to have it in front up to the end of a component (`isWithin_iff`). Two such directories that enclose one
path enclose one another, the shorter the longer (`Encloses.chain`).
-/

namespace LanguageSessions.Path

open Text

/-! ## Pieces -/

theorem not_mem_of_mem_splitOn {separator : Char} {piece : List Char} : ∀ {text : List Char},
    piece ∈ splitOn separator text → separator ∉ piece
  | [], h => by
    rw [splitOn, List.mem_singleton] at h
    exact h ▸ List.not_mem_nil
  | c :: rest, h => by
    rw [splitOn] at h
    split at h
    · rcases List.mem_cons.1 h with rfl | h
      · exact List.not_mem_nil
      · exact not_mem_of_mem_splitOn h
    · next hne =>
      split at h
      · rw [List.mem_singleton] at h
        rw [h, List.mem_singleton]
        exact Ne.symm hne
      · next first pieces heq =>
        have hrest : ∀ p ∈ first :: pieces, separator ∉ p := fun p hp => not_mem_of_mem_splitOn (heq ▸ hp)
        rcases List.mem_cons.1 h with rfl | h
        · exact List.not_mem_cons_of_ne_of_not_mem (Ne.symm hne) (hrest _ List.mem_cons_self)
        · exact hrest _ (List.mem_cons_of_mem _ h)

theorem splitOn_cons_self (separator : Char) (rest : List Char) :
    splitOn separator (separator :: rest) = [] :: splitOn separator rest := by
  rw [splitOn, if_pos rfl]

theorem splitOn_of_not_mem {separator : Char} : ∀ {piece : List Char}, separator ∉ piece →
    splitOn separator piece = [piece]
  | [], _ => rfl
  | c :: piece, h => by
    rw [List.mem_cons, not_or] at h
    rw [splitOn, if_neg (Ne.symm h.1), splitOn_of_not_mem h.2]

/-- A piece without a separator in it, with one behind it, is split off. -/
theorem splitOn_append_cons {separator : Char} : ∀ {piece : List Char}, separator ∉ piece → ∀ rest : List Char,
    splitOn separator (piece ++ separator :: rest) = piece :: splitOn separator rest
  | [], _, rest => splitOn_cons_self separator rest
  | c :: piece, h, rest => by
    rw [List.mem_cons, not_or] at h
    rw [List.cons_append, splitOn, if_neg (Ne.symm h.1), splitOn_append_cons h.2]

theorem splitOn_joinWith {separator : Char} : ∀ {pieces : List (List Char)}, pieces ≠ [] →
    (∀ piece ∈ pieces, separator ∉ piece) → splitOn separator (joinWith [separator] pieces) = pieces
  | [piece], _, h => splitOn_of_not_mem (h piece List.mem_cons_self)
  | piece :: next :: pieces, _, h => by
    rw [List.forall_mem_cons] at h
    rw [joinWith, List.append_assoc, List.singleton_append, splitOn_append_cons h.1,
      splitOn_joinWith (List.cons_ne_nil _ _) h.2]
    simp

/-- What is joined ends like its last piece. -/
theorem getLast?_joinWith (separator : List Char) {last : List Char} (hne : last ≠ []) : ∀ {pieces : List (List Char)},
    pieces.getLast? = some last → (joinWith separator pieces).getLast? = last.getLast?
  | [piece], h => by
    rw [List.getLast?_singleton, Option.some.injEq] at h
    rw [joinWith, h]
  | piece :: next :: pieces, h => by
    rw [List.getLast?_cons_cons] at h
    have ih := getLast?_joinWith separator hne h
    have hsome : last.getLast? ≠ none := fun hnone => hne (List.getLast?_eq_none_iff.1 hnone)
    rw [joinWith, List.getLast?_append, ih, Option.or_of_isSome (Option.isSome_iff_ne_none.2 hsome)]
    simp

theorem dropEndWhile_of_getLast? {p : Char → Bool} {text : List Char} {c : Char} (h : text.getLast? = some c)
    (hp : p c = false) : dropEndWhile p text = text := by
  obtain ⟨front, rfl⟩ := List.getLast?_eq_some_iff.1 h
  simp [dropEndWhile, hp]

/-! ## The shape of a normal form -/

/-- Whether a component can occur in a normal form. -/
structure Proper (component : List Char) : Prop where
  nonempty : component ≠ []
  plain : '/' ∉ component
  not_dot : component ≠ ['.']
  not_dots : component ≠ ['.', '.']

/-- What is joined of components, the last of which is proper, does not end with a slash. -/
theorem getLast?_joinWith_proper (front : List (List Char)) {last : List Char} (proper : Proper last) :
    ∃ c, (joinWith ['/'] (front.concat last)).getLast? = some c ∧ c ≠ '/' := by
  obtain ⟨c, hc⟩ := Option.ne_none_iff_exists'.1 fun hnone => proper.nonempty (List.getLast?_eq_none_iff.1 hnone)
  refine ⟨c, (getLast?_joinWith _ proper.nonempty (by simp)).trans hc, ?_⟩
  rintro rfl
  exact proper.plain (List.mem_of_getLast? hc)

theorem resolveDots_proper {components : List (List Char)}
    (plain : ∀ component ∈ components, component ≠ ['.', '.'] → Proper component) :
    ∀ {visited : List (List Char)}, (∀ component ∈ visited, Proper component) →
      ∀ component ∈ resolveDots visited components, Proper component := by
  induction components with
  | nil => exact fun h component hm => h component (List.mem_reverse.1 hm)
  | cons first rest ih =>
    intro visited h
    have ih := @ih fun component hm => plain component (List.mem_cons_of_mem _ hm)
    rw [resolveDots]
    split
    · exact ih fun component hm => h component (List.mem_of_mem_tail hm)
    · next hne => exact ih (List.forall_mem_cons.2 ⟨plain first List.mem_cons_self hne, h⟩)

/-- The form of a path behind the normalization: one slash or two, and proper components. -/
def Normal (path : List Char) : Prop :=
  ∃ slashes components, (slashes = ['/'] ∨ slashes = ['/', '/']) ∧ (∀ component ∈ components, Proper component) ∧
    path = slashes ++ joinWith ['/'] components

theorem leadingSlashes_eq (path : List Char) : leadingSlashes path = ['/'] ∨ leadingSlashes path = ['/', '/'] := by
  unfold leadingSlashes
  split
  · exact .inr rfl
  · split
    · exact .inl rfl
    · exact .inr rfl
  · exact .inl rfl

theorem normal_normalize (path : List Char) : Normal (normalize path) := by
  refine ⟨leadingSlashes path, _, leadingSlashes_eq path,
    resolveDots_proper ?_ (fun _ h => (List.not_mem_nil h).elim), rfl⟩
  intro component hm hdots
  obtain ⟨hm, hkept⟩ := List.mem_filter.1 hm
  rw [Bool.and_eq_true, bne_iff_ne, Bool.not_eq_true', List.isEmpty_eq_false_iff] at hkept
  exact ⟨hkept.1, not_mem_of_mem_splitOn hm, hkept.2, hdots⟩

/-- Whether a directory starts with a slash and ends with a character that is none. -/
def EndsOpen (directory : List Char) : Prop :=
  (∃ rest, directory = '/' :: rest) ∧ ∃ c, directory.getLast? = some c ∧ c ≠ '/'

/-- A normal form with one slash in front is that slash, or does not end with one. -/
theorem Normal.topmost_or_ends {directory : List Char} (normal : Normal directory)
    (single : ¬ ['/', '/'] <+: directory) : directory = ['/'] ∨ EndsOpen directory := by
  obtain ⟨slashes, components, hslashes, hproper, rfl⟩ := normal
  obtain rfl := hslashes.resolve_right fun h => single (h ▸ List.prefix_append _ _)
  rcases List.eq_nil_or_concat components with rfl | ⟨front, last, rfl⟩
  · exact .inl rfl
  · obtain ⟨c, hlast, hc⟩ := getLast?_joinWith_proper front (hproper last (by simp))
    refine .inr ⟨⟨_, rfl⟩, c, ?_, hc⟩
    rw [List.getLast?_append, hlast, Option.some_or]

/-! ## Normal forms stay as they are -/

/-- The components of a normal form are those that it was put together of. -/
theorem components_append_joinWith {slashes : List Char} (hslashes : slashes = ['/'] ∨ slashes = ['/', '/'])
    {pieces : List (List Char)} (proper : ∀ piece ∈ pieces, Proper piece) :
    components (slashes ++ joinWith ['/'] pieces) = pieces := by
  have hkept : pieces.filter (fun piece => !piece.isEmpty && piece != ['.']) = pieces := by
    refine List.filter_eq_self.2 fun piece hm => ?_
    simp [(proper piece hm).nonempty, (proper piece hm).not_dot]
  have hsplit : (splitOn '/' (joinWith ['/'] pieces)).filter (fun piece => !piece.isEmpty && piece != ['.']) =
      pieces := by
    cases pieces with
    | nil => rfl
    | cons piece pieces =>
      rw [splitOn_joinWith (List.cons_ne_nil _ _) fun piece hm => (proper piece hm).plain, hkept]
  rcases hslashes with rfl | rfl
  · rw [components, List.singleton_append, splitOn_cons_self, List.filter_cons_of_neg (by simp), hsplit]
  · rw [components, List.cons_append, List.singleton_append, splitOn_cons_self, splitOn_cons_self,
      List.filter_cons_of_neg (by simp), List.filter_cons_of_neg (by simp), hsplit]

/-- Where there is nothing to go up from, the components are kept in their order. -/
theorem resolveDots_of_proper {components : List (List Char)} (proper : ∀ component ∈ components, Proper component) :
    ∀ visited, resolveDots visited components = visited.reverse ++ components := by
  induction components with
  | nil => exact fun visited => (List.append_nil _).symm
  | cons first rest ih =>
    intro visited
    rw [List.forall_mem_cons] at proper
    rw [resolveDots, if_neg proper.1.not_dots, ih proper.2, List.reverse_cons, List.append_assoc, List.singleton_append]

/-- What is joined of proper components does not start with a slash. -/
theorem head?_joinWith_ne {pieces : List (List Char)} (proper : ∀ piece ∈ pieces, Proper piece) :
    (joinWith ['/'] pieces).head? ≠ some '/' := by
  have hfirst : ∀ piece ∈ pieces, ∀ rest : List Char, (piece ++ rest).head? ≠ some '/' := by
    intro piece hm rest heq
    obtain ⟨c, piece', rfl⟩ := List.exists_cons_of_ne_nil (proper piece hm).nonempty
    exact (proper _ hm).plain (Option.some.inj heq ▸ List.mem_cons_self)
  match pieces with
  | [] => nofun
  | [piece] =>
    have h := hfirst piece List.mem_cons_self []
    rwa [List.append_nil] at h
  | piece :: next :: pieces =>
    rw [joinWith, List.append_assoc]
    · exact hfirst piece List.mem_cons_self _
    · nofun

theorem leadingSlashes_append {slashes rest : List Char} (hslashes : slashes = ['/'] ∨ slashes = ['/', '/'])
    (hrest : rest.head? ≠ some '/') : leadingSlashes (slashes ++ rest) = slashes := by
  cases rest with
  | nil => rcases hslashes with rfl | rfl <;> rfl
  | cons c rest =>
    have hc : c ≠ '/' := fun heq => hrest (congrArg some heq)
    rcases hslashes with rfl | rfl
    · unfold leadingSlashes
      split
      · next heq => simp_all
      · next heq => simp_all
      · rfl
    · exact if_neg hc

/-- **A normal form is kept as it is.** -/
theorem Normal.normalize {path : List Char} (normal : Normal path) : normalize path = path := by
  obtain ⟨slashes, pieces, hslashes, proper, rfl⟩ := normal
  rw [Path.normalize, leadingSlashes_append hslashes (head?_joinWith_ne proper),
    components_append_joinWith hslashes proper, resolveDots_of_proper proper, List.reverse_nil, List.nil_append]

/-- A normal form ends with a slash only if it is nothing but slashes. -/
theorem Normal.slashes_of_getLast? {path : List Char} (normal : Normal path) (hlast : path.getLast? = some '/') :
    path = ['/'] ∨ path = ['/', '/'] := by
  obtain ⟨slashes, pieces, hslashes, proper, rfl⟩ := normal
  rcases List.eq_nil_or_concat pieces with rfl | ⟨front, last, rfl⟩
  · rwa [joinWith, List.append_nil]
  · obtain ⟨c, hend, hc⟩ := getLast?_joinWith_proper front (proper last (by simp))
    rw [List.getLast?_append, hend, Option.some_or, Option.some.injEq] at hlast
    exact absurd hlast hc

/-! ## The normal form of a root -/

theorem Normal.starts_with_slash {path : List Char} (normal : Normal path) : ∃ rest, path = '/' :: rest := by
  obtain ⟨slashes, pieces, rfl | rfl, -, rfl⟩ := normal
  · exact ⟨_, rfl⟩
  · exact ⟨_, rfl⟩

theorem normal_normalizeRoot (around : Surroundings) (path : String) : Normal (normalizeRoot around path).toList := by
  rw [normalizeRoot, String.toList_ofList]
  exact normal_normalize _

/-- **A root in normal form is its own normal form**, whatever the surroundings are. -/
theorem normalizeRoot_of_normal (around : Surroundings) {root : String} (normal : Normal root.toList) :
    normalizeRoot around root = root := by
  obtain ⟨rest, hrest⟩ := normal.starts_with_slash
  have hexpanded : expandHome around root.toList = root.toList := by
    rw [hrest]
    rfl
  have habsolute : makeAbsolute around root.toList = root.toList := by
    rw [hrest]
    rfl
  rw [normalizeRoot, hexpanded, habsolute, normal.normalize, String.ofList_toList]

theorem normalizeRoot_normalizeRoot (around : Surroundings) (path : String) :
    normalizeRoot around (normalizeRoot around path) = normalizeRoot around path :=
  normalizeRoot_of_normal around (normal_normalizeRoot around path)

/-! ## Enclosing directories -/

/-- Whether a directory is a path or lies above it: whether the path is its text, or goes on behind it with a new
component. -/
def Encloses (directory path : List Char) : Prop :=
  path = directory ∨ (if directory = ['/'] then ['/'] else directory ++ ['/']) <+: path

instance (directory path : List Char) : Decidable (Encloses directory path) :=
  inferInstanceAs (Decidable (_ ∨ _ <+: _))

variable {directory other path : List Char}

theorem encloses_topmost (rest : List Char) : Encloses ['/'] ('/' :: rest) :=
  .inr ⟨rest, rfl⟩

theorem EndsOpen.encloses_iff (ends : EndsOpen directory) :
    Encloses directory path ↔ path = directory ∨ directory ++ ['/'] <+: path := by
  obtain ⟨-, c, hlast, hc⟩ := ends
  have hne : directory ≠ ['/'] := by
    rintro rfl
    exact hc (Option.some.inj hlast).symm
  rw [Encloses, if_neg hne]

/-- What a directory encloses is longer than itself, or itself. -/
theorem Encloses.eq_of_length_le (h : Encloses directory path) (hle : path.length ≤ directory.length) :
    path = directory := by
  rcases h with h | h
  · exact h
  · split at h
    · next htop => exact (htop ▸ (h.eq_of_length_le (htop ▸ hle))).symm
    · have hlong := h.length_le
      rw [List.length_append, List.length_singleton] at hlong
      exact absurd hle (Nat.not_le.2 hlong)

/-- **The test by text is right** for the directories that are registered. -/
theorem isWithin_iff (form : directory = ['/'] ∨ EndsOpen directory) (clean : '\\' ∉ directory) (hne : path ≠ []) :
    isWithin path directory = true ↔ Encloses directory path := by
  rcases form with rfl | ends
  · have hdrop : dropEndWhile (fun c => c == '/' || c == '\\') ['/'] = [] := by decide
    simp only [isWithin, hdrop, Bool.or_eq_true, beq_iff_eq, hne, false_or, startsWith, List.isPrefixOf_iff_prefix,
      List.nil_append, Encloses, if_true, iff_or_self]
    rintro rfl
    exact List.prefix_rfl
  · obtain ⟨c, hlast, hc⟩ := ends.2
    have hback : c ≠ '\\' := fun heq => clean (heq ▸ List.mem_of_getLast? hlast)
    have hkeep : (c == '/' || c == '\\') = false := by simp [hc, hback]
    rw [isWithin, dropEndWhile_of_getLast? hlast hkeep, ends.encloses_iff, Bool.or_eq_true, beq_iff_eq, startsWith,
      List.isPrefixOf_iff_prefix]

/-- **Of two directories that enclose a path, the shorter encloses the longer.** -/
theorem Encloses.chain (form : directory = ['/'] ∨ EndsOpen directory) (formOther : other = ['/'] ∨ EndsOpen other)
    (h : Encloses directory path) (hother : Encloses other path) (hle : directory.length ≤ other.length) :
    Encloses directory other := by
  rcases form with rfl | ends
  · rcases formOther with rfl | ⟨⟨rest, rfl⟩, -⟩
    · exact .inl rfl
    · exact encloses_topmost rest
  have hstart : ∀ {root : List Char}, EndsOpen root → Encloses root path → root <+: path := by
    intro root ends h
    rcases ends.encloses_iff.1 h with rfl | h
    · exact List.prefix_rfl
    · exact (List.prefix_append _ _).trans h
  rcases formOther with rfl | endsOther
  · -- nothing is as short as the topmost directory but itself
    obtain ⟨⟨rest, rfl⟩, -⟩ := ends
    rw [List.eq_nil_of_length_eq_zero (Nat.le_zero.1 (Nat.le_of_succ_le_succ hle))]
    exact .inl rfl
  have hbelow : directory <+: other := List.prefix_of_prefix_length_le (hstart ends h) (hstart endsOther hother) hle
  rw [ends.encloses_iff] at h ⊢
  rcases Nat.lt_or_eq_of_le hle with hlt | heq
  · rcases h with rfl | h
    · exact absurd (hstart endsOther hother).length_le (Nat.not_le.2 hlt)
    · refine .inr (List.prefix_of_prefix_length_le h (hstart endsOther hother) ?_)
      rw [List.length_append]
      exact hlt
  · exact .inl (hbelow.eq_of_length heq).symm

end LanguageSessions.Path
