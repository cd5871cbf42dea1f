import LanguageSessions.Proofs.Entries.Totals
import LanguageSessions.Routes.Basic
import Mathlib.Data.List.Induction

/-!
# The routes follow their history

The two tables of routes are changed by different rules: a registration writes into both, taking a file out changes only
the table of files, and a session that goes is taken out of both. What they answer is told by the history of these
events alone: a registration stands until an event behind it undoes it (`Stands`), and what undoes it in the table of
files (`Event.EndsFile`) is not what undoes it in the table of roots (`Event.EndsRoot`).
-/

namespace LanguageSessions.Routes

/-- What changes the routes. -/
inductive Event where
  | register (path : String) (route : Route)
  | unregister (path : String)
  | unregisterSession (session : String)
  | clear

/-- The routes after an event. -/
def after (routes : Routes) : Event → Routes
  | .register path route => routes.register path route
  | .unregister path => routes.unregister path
  | .unregisterSession session => routes.unregisterSession session
  | .clear => empty

/-- The routes after a history. -/
def run (events : List Event) : Routes := events.foldl after empty

theorem run_concat (events : List Event) (event : Event) : run (events ++ [event]) = (run events).after event := by
  rw [run, List.foldl_append]
  rfl

/-! ## Histories -/

/-- Whether a history has an event of some kind that no event behind it undoes. -/
def Stands (sets undoes : Event → Prop) (events : List Event) : Prop :=
  ∃ before event later, events = before ++ event :: later ∧ sets event ∧ ∀ e ∈ later, ¬ undoes e

/-- Whether an event takes the route of a file away or puts another one in its place. -/
def Event.EndsFile (path : String) (route : Route) : Event → Prop
  | .register other _ => other = path
  | .unregister other => other = path
  | .unregisterSession session => session = route.session
  | .clear => True

/-- Whether an event gives a root and language that a session serves to no session, or to another one. Files that are
taken out do not. -/
def Event.EndsRoot (root language session : String) : Event → Prop
  | .register _ route => route.root = root ∧ route.language = language
  | .unregister _ => False
  | .unregisterSession other => other = session
  | .clear => True

/-- Whether the registration of a file stands. -/
def Routed (path : String) (route : Route) : List Event → Prop :=
  Stands (· = .register path route) (·.EndsFile path route)

/-- Whether the registration of some file gave a root and language to a session, and that stands. -/
def Indexed (root language session : String) : List Event → Prop :=
  Stands (fun event => ∃ path, event = .register path ⟨session, language, root⟩) (·.EndsRoot root language session)

variable {sets undoes : Event → Prop} {events : List Event} {event : Event}

theorem not_stands_nil : ¬ Stands sets undoes [] := by
  rintro ⟨before, event, later, h, -⟩
  exact List.append_ne_nil_of_right_ne_nil before (List.cons_ne_nil _ _) h.symm

/-- One more event stands itself, or leaves standing what it does not undo. -/
theorem stands_concat :
    Stands sets undoes (events ++ [event]) ↔ sets event ∨ (Stands sets undoes events ∧ ¬ undoes event) := by
  constructor
  · rintro ⟨before, set, later, h, hset, hlater⟩
    rcases List.eq_nil_or_concat later with rfl | ⟨later, last, rfl⟩
    · obtain ⟨-, heq⟩ := List.append_inj' h rfl
      cases heq
      exact .inl hset
    · rw [List.concat_eq_append] at h hlater
      rw [← List.cons_append, ← List.append_assoc] at h
      obtain ⟨rfl, heq⟩ := List.append_inj' h rfl
      cases heq
      have hrest : ∀ e ∈ later, ¬ undoes e := fun e he => hlater e (List.mem_append_left _ he)
      exact .inr ⟨⟨before, set, later, rfl, hset, hrest⟩, hlater _ List.mem_concat_self⟩
  · rintro (hset | ⟨⟨before, set, later, rfl, hset, hlater⟩, hlast⟩)
    · exact ⟨events, event, [], rfl, hset, fun e he => nomatch he⟩
    · refine ⟨before, set, later ++ [event], by simp, hset, fun e he => ?_⟩
      rcases List.mem_append.1 he with he | he
      · exact hlater e he
      · exact List.mem_singleton.1 he ▸ hlast

/-! ## One event -/

/-- Both tables have each of their keys once. -/
structure Tidy (routes : Routes) : Prop where
  files : routes.byFile.keys.Nodup
  roots : routes.byRoot.keys.Nodup

variable {routes : Routes}

theorem tidy_empty : empty.Tidy := ⟨List.nodup_nil, List.nodup_nil⟩

theorem Tidy.after (tidy : routes.Tidy) (event : Event) : (routes.after event).Tidy := by
  cases event with
  | register path route => exact ⟨Entries.nodup_keys_set tidy.files _ _, Entries.nodup_keys_set tidy.roots _ _⟩
  | unregister path => exact ⟨Entries.nodup_keys_erase tidy.files _, tidy.roots⟩
  | unregisterSession session => exact ⟨Entries.nodup_keys_filter tidy.files _, Entries.nodup_keys_filter tidy.roots _⟩
  | clear => exact tidy_empty

theorem Tidy.get?_unregisterSession (tidy : routes.Tidy) (session path : String) :
    (routes.unregisterSession session).get? path = (routes.get? path).filter (·.session != session) :=
  Entries.get?_filter (fun route : Route => route.session != session) path tidy.files

theorem Tidy.session?_unregisterSession (tidy : routes.Tidy) (session : String) (key : String × String) :
    (routes.unregisterSession session).byRoot.get? key = (routes.byRoot.get? key).filter (· != session) :=
  Entries.get?_filter (· != session) key tidy.roots

/-- A file has a route that an event gave it, or one that it had before and the event left. -/
theorem Tidy.get?_after (tidy : routes.Tidy) (event : Event) (path : String) (route : Route) :
    (routes.after event).get? path = some route ↔
      event = .register path route ∨ (routes.get? path = some route ∧ ¬ event.EndsFile path route) := by
  cases event with
  | register other new =>
    have hset : (routes.register other new).get? path = if other = path then some new else routes.get? path :=
      Entries.get?_set other path new routes.byFile
    rw [Routes.after, hset, Event.EndsFile, Event.register.injEq]
    by_cases he : other = path <;> simp [he]
  | unregister other =>
    have herase : (routes.unregister other).get? path = if other = path then none else routes.get? path :=
      Entries.get?_erase other path routes.byFile
    rw [Routes.after, herase, Event.EndsFile]
    by_cases he : other = path <;> simp [he]
  | unregisterSession session =>
    rw [Routes.after, tidy.get?_unregisterSession, Option.filter_eq_some_iff, bne_iff_ne, Event.EndsFile, ne_comm]
    simp
  | clear => simp [Routes.after, empty, get?, Entries.get?, Event.EndsFile]

/-- A root and language have a session that an event gave them, or one that they had before and the event left. -/
theorem Tidy.session?_after (tidy : routes.Tidy) (event : Event) (root language session : String) :
    (routes.after event).byRoot.get? (root, language) = some session ↔
      (∃ path, event = .register path ⟨session, language, root⟩) ∨
        (routes.byRoot.get? (root, language) = some session ∧ ¬ event.EndsRoot root language session) := by
  cases event with
  | register path new =>
    rw [Routes.after, register, Entries.get?_set, Event.EndsRoot]
    obtain ⟨newSession, newLanguage, newRoot⟩ := new
    by_cases he : newRoot = root ∧ newLanguage = language
    · obtain ⟨rfl, rfl⟩ := he
      simp
    · rw [if_neg (fun h => he (Prod.mk.injEq .. ▸ h))]
      simp only [Event.register.injEq, Route.mk.injEq, he, not_false_eq_true, and_true]
      refine ⟨.inr, fun h => h.resolve_left ?_⟩
      rintro ⟨_, _, _, hlanguage, hroot⟩
      exact he ⟨hroot, hlanguage⟩
  | unregister path => simp [Routes.after, unregister, Event.EndsRoot]
  | unregisterSession other =>
    rw [Routes.after, tidy.session?_unregisterSession, Option.filter_eq_some_iff, bne_iff_ne, Event.EndsRoot, ne_comm]
    simp
  | clear => simp [Routes.after, empty, Entries.get?, Event.EndsRoot]

/-! ## All events -/

theorem tidy_run (events : List Event) : (run events).Tidy := by
  induction events using List.reverseRecOn with
  | nil => exact tidy_empty
  | append_singleton events event ih => exact run_concat events event ▸ ih.after event

theorem get?_run (events : List Event) (path : String) (route : Route) :
    (run events).get? path = some route ↔ Routed path route events := by
  induction events using List.reverseRecOn with
  | nil => exact ⟨fun h => (nomatch h), fun h => (not_stands_nil h).elim⟩
  | append_singleton events event ih =>
    rw [run_concat, (tidy_run events).get?_after, ih, Routed, stands_concat]

theorem session?_run (events : List Event) (root language session : String) :
    (run events).byRoot.get? (root, language) = some session ↔ Indexed root language session events := by
  induction events using List.reverseRecOn with
  | nil => exact ⟨fun h => (nomatch h), fun h => (not_stands_nil h).elim⟩
  | append_singleton events event ih =>
    rw [run_concat, (tidy_run events).session?_after, ih, Indexed, stands_concat]

theorem ofRoot?_eq_some_iff {root language : String} {route : Route} :
    routes.ofRoot? root language = some route ↔
      (route.root = root ∧ route.language = language) ∧ routes.byRoot.get? (root, language) = some route.session := by
  rw [ofRoot?, Option.map_eq_some_iff]
  constructor
  · rintro ⟨session, h, rfl⟩
    exact ⟨⟨rfl, rfl⟩, h⟩
  · rintro ⟨⟨rfl, rfl⟩, h⟩
    exact ⟨route.session, h, rfl⟩

theorem mem_rootsFor {root language : String} :
    root ∈ routes.rootsFor language ↔ ∃ session, routes.byRoot.get? (root, language) = some session := by
  rw [← Option.isSome_iff_exists, ← Option.ne_none_iff_isSome, ne_eq, Entries.get?_eq_none_iff, not_not, rootsFor]
  simp

theorem Tidy.nodup_rootsFor (tidy : routes.Tidy) (language : String) : (routes.rootsFor language).Nodup := by
  refine (tidy.roots.filter _).map_on fun a ha b hb h => Prod.ext h ?_
  rw [List.mem_filter, beq_iff_eq] at ha hb
  exact ha.2.trans hb.2.symm

theorem Tidy.ofRoot?_unregisterSession (tidy : routes.Tidy) (session root language : String) :
    (routes.unregisterSession session).ofRoot? root language =
      (routes.ofRoot? root language).filter (·.session != session) := by
  rw [ofRoot?, tidy.session?_unregisterSession, ofRoot?]
  cases routes.byRoot.get? (root, language) with
  | none => rfl
  | some other => by_cases h : other = session <;> simp [Option.filter, h]

/-- **The routes follow their history.** A file has the route that stands for it, and a root the session that stands
for it, each root of a language being listed once; taking a session out leaves all that leads elsewhere. -/
theorem routes_follow_their_history (events : List Event) :
    (∀ path route, (run events).get? path = some route ↔ Routed path route events) ∧
    (∀ root language route, (run events).ofRoot? root language = some route ↔
      (route.root = root ∧ route.language = language) ∧ Indexed root language route.session events) ∧
    (∀ language, ((run events).rootsFor language).Nodup ∧
      ∀ root, root ∈ (run events).rootsFor language ↔ ∃ session, Indexed root language session events) ∧
    ∀ session, (∀ path, ((run events).unregisterSession session).get? path =
        ((run events).get? path).filter (·.session != session)) ∧
      ∀ root language, ((run events).unregisterSession session).ofRoot? root language =
        ((run events).ofRoot? root language).filter (·.session != session) := by
  have tidy := tidy_run events
  refine ⟨get?_run events, fun root language route => ?_,
    fun language => ⟨tidy.nodup_rootsFor language, fun root => ?_⟩,
    fun session => ⟨tidy.get?_unregisterSession session, tidy.ofRoot?_unregisterSession session⟩⟩
  · rw [ofRoot?_eq_some_iff, session?_run]
  · simp only [mem_rootsFor, session?_run]

/-- A session that took over a root does not give it back when it goes. -/
example : (run [.register "/w/a.py" ⟨"old", "python", "/w"⟩, .register "/w/b.py" ⟨"new", "python", "/w"⟩,
    .unregisterSession "new"]).ofRoot? "/w" "python" = none := by decide

end LanguageSessions.Routes
