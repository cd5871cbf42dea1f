import LanguageSessions.Proofs.Path
import LanguageSessions.Proofs.Routes.History
import LanguageSessions.Routes.Lookup

/-!
# The right route for a file

What serves a file is told by cases (`Serves`): its own route; else nothing, if its suffix belongs to no language with a
server; else the session of the deepest root of that language that encloses it; else the first route of the language.
The search by lengths of texts finds just that (`resolve_eq_iff_serves`), since the registered roots are normal forms:
of two that enclose a file the shorter encloses the longer.
-/

namespace LanguageSessions.Routes

open LanguageSessions.Path

/-- The root of a project as it is registered: the normal form of some path, with one slash in front and without
backslashes. -/
structure RegisteredRoot (root : String) : Prop where
  normal : ∃ around path, root = normalizeRoot around path
  single : ¬ ['/', '/'] <+: root.toList
  clean : '\\' ∉ root.toList

/-- Whether all roots with a session are registered as they are meant to be. -/
def WellRooted (routes : Routes) : Prop := ∀ key ∈ routes.byRoot.keys, RegisteredRoot key.1

/-- Whether the suffix of a path belongs to a language that has a server. -/
def Speaks (servers : Servers) (path language : String) : Prop :=
  servers.languageOfPath path = some language ∧ servers.supports language = true

/-- The deepest root with a session for a language that encloses a path: any other one encloses that root as well. -/
structure IsDeepest (routes : Routes) (language path root : String) : Prop where
  registered : root ∈ routes.rootsFor language
  encloses : Encloses root.toList path.toList
  below : ∀ other ∈ routes.rootsFor language, Encloses other.toList path.toList → Encloses other.toList root.toList

/-- What serves a file. -/
inductive Serves (routes : Routes) (servers : Servers) (path : String) : Option Route → Prop
  /-- The file was registered itself. -/
  | own {route : Route} (direct : routes.get? path = some route) : Serves routes servers path (some route)
  /-- No server speaks its language. -/
  | unsupported (direct : routes.get? path = none) (mute : ∀ language, ¬ Speaks servers path language) :
      Serves routes servers path none
  /-- It lies below roots that have a session. -/
  | root {language root : String} {route : Route} (direct : routes.get? path = none)
      (speaks : Speaks servers path language) (deepest : routes.IsDeepest language path root)
      (index : routes.ofRoot? root language = some route) : Serves routes servers path (some route)
  /-- It lies below none, and another file of its language was registered. -/
  | kin {language : String} {route : Route} {before later : List Route} (direct : routes.get? path = none)
      (speaks : Speaks servers path language)
      (outside : ∀ root ∈ routes.rootsFor language, ¬ Encloses root.toList path.toList)
      (table : routes.byFile.values = before ++ route :: later) (same : route.language = language)
      (first : ∀ other ∈ before, other.language ≠ language) : Serves routes servers path (some route)
  /-- No file of its language was registered. -/
  | nobody {language : String} (direct : routes.get? path = none) (speaks : Speaks servers path language)
      (outside : ∀ root ∈ routes.rootsFor language, ¬ Encloses root.toList path.toList)
      (none_speaks : ∀ other ∈ routes.byFile.values, other.language ≠ language) : Serves routes servers path none

variable {routes : Routes} {servers : Servers} {path language root : String}

/-! ## The language of a file -/

/-- A language that is found by an extension is one of the table. -/
theorem supports_of_languageOfPath (h : servers.languageOfPath path = some language) :
    servers.supports language = true := by
  unfold Servers.languageOfPath at h
  split at h
  · cases h
  · obtain ⟨entry, hentry, rfl⟩ := Option.map_eq_some_iff.1 h
    rw [Servers.supports, Servers.get?, Option.isSome_map, List.find?_isSome]
    exact ⟨entry, List.mem_of_find?_eq_some hentry, beq_self_eq_true _⟩

theorem speaks_iff : Speaks servers path language ↔ servers.languageOfPath path = some language :=
  ⟨And.left, fun h => ⟨h, supports_of_languageOfPath h⟩⟩

/-- Without a text there is no suffix. -/
theorem Speaks.ne_nil (h : Speaks servers path language) : path.toList ≠ [] := by
  intro hnil
  have hnone : servers.languageOfPath path = none := by
    rw [Servers.languageOfPath, hnil]
    rfl
  rw [speaks_iff, hnone] at h
  cases h

/-! ## The roots above a file -/

theorem RegisteredRoot.form (h : RegisteredRoot root) : root.toList = ['/'] ∨ EndsOpen root.toList := by
  obtain ⟨around, path, rfl⟩ := h.normal
  exact (normal_normalizeRoot around path).topmost_or_ends h.single

theorem WellRooted.registered (rooted : routes.WellRooted) (h : root ∈ routes.rootsFor language) :
    RegisteredRoot root := by
  obtain ⟨session, h⟩ := mem_rootsFor.1 h
  exact rooted _ (Entries.mem_keys_of_mem (Entries.mem_of_get? h))

theorem exists_ofRoot? (h : root ∈ routes.rootsFor language) : ∃ route, routes.ofRoot? root language = some route := by
  obtain ⟨session, h⟩ := mem_rootsFor.1 h
  exact ⟨⟨session, language, root⟩, ofRoot?_eq_some_iff.2 ⟨⟨rfl, rfl⟩, h⟩⟩

theorem mem_rootsAbove (rooted : routes.WellRooted) (hne : path.toList ≠ []) :
    root ∈ routes.rootsAbove path language ↔ root ∈ routes.rootsFor language ∧ Encloses root.toList path.toList := by
  rw [rootsAbove, List.mem_mergeSort, List.mem_filter]
  refine and_congr_right fun h => ?_
  have registered := rooted.registered h
  exact isWithin_iff registered.form registered.clean hne

/-- The first root above a file is as long as any. -/
theorem length_le_of_rootsAbove {rest : List String} (h : routes.rootsAbove path language = root :: rest) :
    ∀ other ∈ routes.rootsAbove path language, other.length ≤ root.length := by
  have sorted : (routes.rootsAbove path language).Pairwise fun a b => decide (b.length ≤ a.length) = true := by
    refine List.pairwise_mergeSort (fun a b c hab hbc => ?_) (fun a b => ?_) _
    · rw [decide_eq_true_iff] at hab hbc ⊢
      exact hbc.trans hab
    · rw [Bool.or_eq_true, decide_eq_true_iff, decide_eq_true_iff]
      exact Nat.le_total _ _
  rw [h] at sorted ⊢
  intro other hother
  rcases List.mem_cons.1 hother with rfl | hother
  · exact Nat.le_refl _
  · exact of_decide_eq_true (List.rel_of_pairwise_cons sorted hother)

/-- **The longest root above a file is the deepest.** -/
theorem isDeepest_of_rootsAbove (rooted : routes.WellRooted) (hne : path.toList ≠ []) {rest : List String}
    (h : routes.rootsAbove path language = root :: rest) : routes.IsDeepest language path root := by
  obtain ⟨hroot, encloses⟩ := (mem_rootsAbove rooted hne).1 (h ▸ List.mem_cons_self)
  refine ⟨hroot, encloses, fun other hother hencloses => ?_⟩
  refine hencloses.chain (rooted.registered hother).form (rooted.registered hroot).form encloses ?_
  rw [String.length_toList, String.length_toList]
  exact length_le_of_rootsAbove h other ((mem_rootsAbove rooted hne).2 ⟨hother, hencloses⟩)

/-- No two roots are the deepest. -/
theorem IsDeepest.unique {other : String} (h : routes.IsDeepest language path root)
    (hother : routes.IsDeepest language path other) : root = other := by
  have below := h.below other hother.registered hother.encloses
  have above := hother.below root h.registered h.encloses
  rcases Nat.le_total root.toList.length other.toList.length with hle | hle
  · exact String.toList_inj.1 (below.eq_of_length_le hle)
  · exact (String.toList_inj.1 (above.eq_of_length_le hle)).symm

/-! ## The search -/

theorem resolveLanguage_of_deepest (rooted : routes.WellRooted) (hne : path.toList ≠ []) {route : Route}
    (deepest : routes.IsDeepest language path root) (index : routes.ofRoot? root language = some route) :
    routes.resolveLanguage path language = some route := by
  have hmem := (mem_rootsAbove rooted hne).2 ⟨deepest.registered, deepest.encloses⟩
  obtain ⟨first, rest, h⟩ := List.exists_cons_of_ne_nil (List.ne_nil_of_mem hmem)
  obtain rfl := deepest.unique (isDeepest_of_rootsAbove rooted hne h)
  rw [resolveLanguage, h, List.findSome?_cons, index]

theorem resolveLanguage_of_outside (rooted : routes.WellRooted) (hne : path.toList ≠ [])
    (outside : ∀ root ∈ routes.rootsFor language, ¬ Encloses root.toList path.toList) :
    routes.resolveLanguage path language = routes.byFile.values.find? fun route => route.language == language := by
  have hnil : routes.rootsAbove path language = [] := by
    refine List.eq_nil_iff_forall_not_mem.2 fun root hroot => ?_
    obtain ⟨hregistered, hencloses⟩ := (mem_rootsAbove rooted hne).1 hroot
    exact outside root hregistered hencloses
  rw [resolveLanguage, hnil, List.findSome?_nil]

/-- A path lies below a deepest root, or outside of all. -/
theorem deepest_or_outside (rooted : routes.WellRooted) (hne : path.toList ≠ []) :
    (∃ root, routes.IsDeepest language path root) ∨
      ∀ root ∈ routes.rootsFor language, ¬ Encloses root.toList path.toList := by
  cases h : routes.rootsAbove path language with
  | cons root rest => exact .inl ⟨root, isDeepest_of_rootsAbove rooted hne h⟩
  | nil =>
    refine .inr fun root hroot hencloses => ?_
    have hmem := (mem_rootsAbove rooted hne).2 ⟨hroot, hencloses⟩
    rw [h] at hmem
    exact List.not_mem_nil hmem

/-- What serves a file is found. -/
theorem Serves.resolve_eq (rooted : routes.WellRooted) {outcome : Option Route}
    (h : Serves routes servers path outcome) : routes.resolve servers path = outcome := by
  cases h with
  | own direct => rw [resolve, direct]
  | unsupported direct mute =>
    have hnone : servers.languageOfPath path = none :=
      Option.eq_none_iff_forall_ne_some.2 fun language h => mute language (speaks_iff.2 h)
    rw [resolve, direct, hnone]
  | root direct speaks deepest index =>
    rw [resolve, direct, speaks.1]
    exact resolveLanguage_of_deepest rooted speaks.ne_nil deepest index
  | kin direct speaks outside table same first =>
    rw [resolve, direct, speaks.1]
    refine (resolveLanguage_of_outside rooted speaks.ne_nil outside).trans ?_
    refine List.find?_eq_some_iff_append.2 ⟨beq_iff_eq.2 same, _, _, table, fun other hother => ?_⟩
    rw [Bool.not_eq_true', beq_eq_false_iff_ne]
    exact first other hother
  | nobody direct speaks outside none_speaks =>
    rw [resolve, direct, speaks.1]
    refine (resolveLanguage_of_outside rooted speaks.ne_nil outside).trans ?_
    exact List.find?_eq_none.2 fun other hother => by simpa using none_speaks other hother

/-- Something serves each file, be it nobody. -/
theorem exists_serves (rooted : routes.WellRooted) (servers : Servers) (path : String) :
    ∃ outcome, Serves routes servers path outcome := by
  cases direct : routes.get? path with
  | some route => exact ⟨_, .own direct⟩
  | none =>
    by_cases hspeaks : ∃ language, Speaks servers path language
    · obtain ⟨language, speaks⟩ := hspeaks
      rcases deepest_or_outside rooted speaks.ne_nil with ⟨root, deepest⟩ | outside
      · obtain ⟨route, index⟩ := exists_ofRoot? deepest.registered
        exact ⟨_, .root direct speaks deepest index⟩
      · cases hfind : routes.byFile.values.find? fun route => route.language == language with
        | none =>
          refine ⟨_, .nobody direct speaks outside fun other hother => ?_⟩
          simpa using List.find?_eq_none.1 hfind other hother
        | some route =>
          obtain ⟨same, before, later, table, first⟩ := List.find?_eq_some_iff_append.1 hfind
          refine ⟨_, .kin direct speaks outside table (beq_iff_eq.1 same) fun other hother => ?_⟩
          simpa using first other hother
    · exact ⟨_, .unsupported direct (not_exists.1 hspeaks)⟩

/-- **A file gets the right route**: just the one that serves it, if any does. -/
theorem resolve_eq_iff_serves (rooted : routes.WellRooted) (servers : Servers) (path : String)
    (outcome : Option Route) : routes.resolve servers path = outcome ↔ Serves routes servers path outcome := by
  refine ⟨fun h => ?_, Serves.resolve_eq rooted⟩
  obtain ⟨other, serves⟩ := exists_serves rooted servers path
  rwa [← h, serves.resolve_eq rooted]

/-- Routes to a directory, a project below it and the topmost directory. -/
def nestedRoots : Routes :=
  run [.register "/work/a.py" ⟨"outer", "python", "/work"⟩,
    .register "/work/project/b.py" ⟨"inner", "python", "/work/project"⟩, .register "/c.go" ⟨"all", "go", "/"⟩]

/-- A project beside another one, whose name its own begins with, is served by the root above both. -/
theorem project_beside_another :
    nestedRoots.WellRooted ∧
      nestedRoots.resolve .standard "/work/project2/x.py" = some ⟨"outer", "python", "/work"⟩ := by
  have here (root : String) (h : root = normalizeRoot ⟨"/", "/", []⟩ root) (single : ¬ ['/', '/'] <+: root.toList)
      (clean : '\\' ∉ root.toList) : RegisteredRoot root := ⟨⟨_, _, h⟩, single, clean⟩
  have rooted : nestedRoots.WellRooted := by
    change ∀ key ∈ [("/work", "python"), ("/work/project", "python"), ("/", "go")], RegisteredRoot key.1
    simp only [List.forall_mem_cons]
    exact ⟨here _ (by decide) (by decide) (by decide), here _ (by decide) (by decide) (by decide),
      here _ (by decide) (by decide) (by decide), fun _ h => (List.not_mem_nil h).elim⟩
  have deepest : nestedRoots.IsDeepest "python" "/work/project2/x.py" "/work" := ⟨by decide, by decide, by decide⟩
  exact ⟨rooted, (resolve_eq_iff_serves rooted _ _ _).2 (.root (by decide) ⟨by decide, by decide⟩ deepest (by decide))⟩

end LanguageSessions.Routes
