import LanguageSessions.Proofs.Client.Discipline
import LanguageSessions.Proofs.Engine.OneSession
import LanguageSessions.Proofs.Engine.Scenes
import LanguageSessions.Proofs.Engine.Statuses

/-!
# The discipline of a binding

In a course of events a document is used through one binding only. If the binding is not to open it while it is open,
and is connected to no other session while it is open (`Respects`), then what each session is told about the document
keeps the discipline (`bindings_keep_the_discipline`), provided that whatever is to be handed over is handed over at
once. Without either of the two it does not: a binding may open its document again (`document_is_opened_twice`), and
one that is connected anew takes its document for open in the new session (`changed_without_being_opened`).
-/

namespace LanguageSessions

open Client DocumentNotice

theorem Happens.keeps {warrant : Warrant} {before after : Scene} {number : Nat} {path : String}
    (h : Happens warrant before after) (keeps : before.Keeps number path) (named : before.sessions.Named)
    (distinct : after.sessions.Distinct) (tells : ∀ uri, warrant.tells uri → uri ≠ Uri.ofPath path)
    (binds : ¬ warrant.binds number) (stays : before.Stays warrant number)
    (rebinds : ∀ bindings, warrant.rebinds bindings → before.bindings <+: bindings ∧
      ∀ binding, before.bindings[number]? = none → bindings[number]? = some binding →
        binding.path = path ∧ binding.isOpen = false) : after.Keeps number path := by
  cases h with
  | changes changes => exact changes.keeps keeps named distinct tells binds stays
  | concludes changes attains =>
    obtain ⟨bound, disciplined, opened, untold, reached⟩ := changes.keeps keeps named distinct tells binds stays
    exact ⟨bound, disciplined, opened, untold, reached⟩
  | @binds bindings allowed =>
    obtain ⟨hmore, hnew⟩ := rebinds bindings allowed
    cases hold : before.bindings[number]? with
    | some old =>
      -- The binding was there, and is as it was.
      have hsame : bindings[number]? = before.bindings[number]? := by
        obtain ⟨more, rfl⟩ := hmore
        exact List.getElem?_append_left (List.getElem?_eq_some_iff.1 hold).1
      have hopen : ({ before with bindings } : Scene).openSession? number = before.openSession? number :=
        congrArg (·.bind Client.openSession?) hsame
      refine ⟨fun binding hb => keeps.bound binding (hsame ▸ hb), keeps.disciplined,
        fun n session registered ready => ?_, keeps.untold, fun id hid => keeps.reached id (hopen ▸ hid)⟩
      rw [hopen]
      exact keeps.opened n session registered ready
    | none =>
      have hclosed : before.openSession? number = none := by
        unfold Scene.openSession?
        rw [hold]
        rfl
      refine keeps.shut (fun binding hb => (hnew binding hold hb).1) ?_ fun n session _ _ hopen => ?_
      · cases hb : bindings[number]? with
        | none => rfl
        | some binding =>
          rw [Option.bind_some, Client.openSession?, (hnew binding hold hb).2]
          rfl
      · rw [hclosed] at hopen
        cases hopen

namespace Engine

variable {σ : Type}

section Respecting

variable (engine : Engine (σ × List Exchange)) (event : Event σ) (setup : Setup σ) (number : Nat) (path : String)

/-- What anybody may do in an event but to a binding and its document. -/
def others : Warrant :=
  { engine.latitude event setup with tells := (· ≠ Uri.ofPath path), binds := (· ≠ number) }

/-- In an event a document is used through its binding only. The binding is not to open it while it is open, and it is
connected to no other session then. -/
structure Respects : Prop where
  operations : ∀ task operation, engine.Begins event task operation →
    (engine.others event setup number path).Covers engine.client.bindings operation ∨ operation.IsOf number
  opens : ∀ task text binding, engine.Begins event task (.openBinding number text) →
    engine.client.bindings[number]? = some binding → binding.isOpen = false
  stays : ∀ id binding, engine.Connects event setup number id → engine.client.bindings[number]? = some binding →
    binding.isOpen = true → binding.session = some id
  /-- Files are only added to those that are bound, and the binding of the document is not open at first. -/
  bound : ∀ bindings, event = .bind bindings → engine.client.bindings <+: bindings ∧
    ∀ binding, engine.client.bindings[number]? = none → bindings[number]? = some binding →
      binding.path = path ∧ binding.isOpen = false

end Respecting

/-! ## Nobody waits for a notification -/

/-- No task waits for a notification to be handed over. -/
def Unhindered (engine : Engine σ) : Prop := ∀ task activity, engine.Waits task activity → activity.isNoticing = false

section Waiting

variable {setup : Setup σ} {engine : Engine (σ × List Exchange)} {n : Nat} {activity : Activity}

/-- Whoever waits behind a turn waited before, has just begun, or has gone on. -/
theorem waits_perform {turn : Turn} (h : (engine.perform setup.recorded turn).Waits n activity) :
    engine.Waits n activity ∨
      (∃ operation, (engine.client.beginOperation setup.recorded operation).2 = .waits activity) ∨
      ∃ cancelled earlier, engine.Waits n earlier ∧
        (engine.client.resumeActivity setup.recorded cancelled earlier).2 = .waits activity := by
  rcases task_perform engine setup.recorded turn n with hsame | ⟨-, heq⟩ | ⟨signal, -, -, heq⟩
  · obtain ⟨cancelled, found⟩ := h
    exact Or.inl ⟨cancelled, hsame ▸ found⟩
  · rw [heq] at h
    unfold Engine.beginTask at h
    split at h
    · next operation cancelled _ =>
      have hstep := waits_afterTask h
      split at hstep
      · cases hstep
      · exact Or.inr (Or.inl ⟨operation, hstep⟩)
    · exact Or.inl h
  · rw [heq] at h
    unfold Engine.resumeTask at h
    split at h
    · next earlier cancelled found => exact Or.inr (Or.inr ⟨cancelled, earlier, ⟨cancelled, found⟩, waits_afterTask h⟩)
    · exact Or.inl h

theorem Unhindered.goes (h : engine.Unhindered) (atOnce : setup.layer.SendsAtOnce) (event : Event σ) :
    (engine.goes setup event).Unhindered := by
  intro n activity hw
  by_cases hne : event = .turn
  · subst hne
    change (engine.next setup.recorded).Waits n activity at hw
    rcases next_cases engine setup.recorded with heq | ⟨turn, queue, -, heq⟩
    · rw [heq] at hw
      exact h n activity hw
    · rw [heq] at hw
      rcases waits_perform hw with hold | ⟨operation, hbegun⟩ | ⟨cancelled, earlier, hearlier, hresumed⟩
      · exact h n activity hold
      · exact isNoticing_beginOperation atOnce hbegun
      · exact isNoticing_resumeActivity (h n earlier hearlier) hresumed
  · exact h n activity (waits_goes hne hw)

end Waiting

/-! ## Events -/

section Events

variable {setup : Setup σ} {letters : List Letter} {engine : Engine (σ × List Exchange)} {event : Event σ}
  {number : Nat} {path : String}

/-- **In every event that respects a binding its discipline is kept.** -/
theorem Composed.keeps_goes (h : Composed letters engine) (named : engine.client.sessions.Named)
    (unique : engine.client.sessions.numbers.keys.Nodup) (unhindered : engine.Unhindered)
    (atOnce : setup.layer.SendsAtOnce) (respects : engine.Respects event setup number path)
    (distinct : (engine.goes setup event).client.sessions.Distinct)
    (keeps : (engine.client.scene letters).Keeps number path) :
    ∃ letters', Composed letters' (engine.goes setup event) ∧
      (∀ letter ∈ letters', letter.IsPassed → letter ∈ letters ∨ engine.Writes event letter) ∧
      ((engine.goes setup event).client.scene letters').Keeps number path := by
  by_cases own : ∃ task operation, engine.Begins event task operation ∧ operation.IsOf number
  · -- The binding itself is called.
    obtain ⟨task, operation, begins, isOwn⟩ := own
    obtain ⟨queue, hgoes⟩ := goes_of_begins setup begins
    rw [hgoes]
    have hpopped : Composed letters (engine.withQueue queue) := ⟨h.halts, h.fruitful, h.accounted⟩
    have makes : Makes (engine.latitude event setup) ((engine.withQueue queue).client.scene letters)
        (KeptAtOnce number path) ((engine.withQueue queue).client.beginOperation setup.recorded operation) := by
      have closed : ∀ text binding, operation = .openBinding number text →
          engine.client.bindings[number]? = some binding → binding.isOpen = false := by
        rintro text binding rfl found
        exact respects.opens task text binding begins found
      have hnamed : (engine.withQueue queue).client.sessions.Named := named
      exact keeps_beginOperation atOnce hnamed unique keeps isOwn closed trivial trivial
    obtain ⟨letters', happens, composed, -, hkept⟩ := hpopped.task task makes fun scene hp => by
      obtain ⟨⟨outcome, hends⟩, -⟩ := hp
      rw [hends]
      exact Scene.halting_ends outcome
    exact ⟨letters', composed, fun _ => happens.passed, hkept⟩
  · have permits : engine.Permits event setup (engine.others event setup number path) := by
      constructor
      case begins =>
        intro task operation begins
        have hcovers := respects.operations task operation begins
        exact hcovers.resolve_right fun isOwn => own ⟨task, operation, begins, isOwn⟩
      case goesOn =>
        intro task activity goesOn
        have hquiet := unhindered task activity goesOn.2.2
        cases activity with
        | noticing use phase => cases hquiet
        | _ => exact trivial
      case connects => exact fun _ _ => id
      case rebinds => exact fun _ => id
    obtain ⟨letters', happens, composed⟩ := h.goes named setup permits
    refine ⟨letters', composed, fun _ => happens.passed, ?_⟩
    exact happens.keeps keeps named distinct (fun _ => id) (fun hne => hne rfl) respects.stays respects.bound

end Events

/-! ## Courses -/

section Courses

variable (setup : Setup σ) (layer : σ) (settings : Settings)

/-- **What each session is told about a document keeps the discipline**, in a course of events that uses it through one
binding, apart from notifications that somebody had passed on in the course. -/
theorem bindings_keep_the_discipline (atOnce : setup.layer.SendsAtOnce) (number : Nat) (path : String)
    (events : List (Event σ))
    (respects : ∀ before event after, events = before ++ event :: after →
      (course setup (fresh layer settings) before).Respects event setup number path)
    (distinct : (course setup (fresh layer settings) events).client.sessions.Distinct) :
    ∃ letters : List Letter, (∀ id, (course setup (fresh layer settings) events).client.handed id =
        letters.filterMap fun letter => if letter.session = id then some letter.text else none) ∧
      (∀ letter ∈ letters, letter.IsPassed → ∃ before event after, events = before ++ event :: after ∧
        (course setup (fresh layer settings) before).Writes event letter) ∧
      ∀ id, openBehind? (letters.filterMap (Letter.noticeFor? id)) (Uri.ofPath path) ≠ none := by
  have hcourse : ∃ letters, Composed letters (course setup (fresh layer settings) events) ∧
      (course setup (fresh layer settings) events).Unhindered ∧
      (∀ letter ∈ letters, letter.IsPassed → ∃ before event after, events = before ++ event :: after ∧
        (course setup (fresh layer settings) before).Writes event letter) ∧
      ((course setup (fresh layer settings) events).client.scene letters).Keeps number path := by
    induction events using List.reverseRecOn with
    | nil =>
      refine ⟨[], composed_fresh layer settings, ?_, nofun, ?_⟩
      · rintro task activity ⟨cancelled, found⟩
        cases found
      · refine ⟨nofun, fun id => Option.some_ne_none _, fun n session registered => ?_, fun _ _ => rfl, nofun⟩
        cases registered.session
    | append_singleton events event ih =>
      obtain ⟨_, lawful⟩ := lawful_course setup layer settings events
      have hadvances := (passes_course setup layer settings events [event]).advances
      obtain ⟨letters, composed, unhindered, passed, keeps⟩ := ih
        (fun before other after heq => respects before other (after ++ [event]) (by rw [heq, List.append_assoc]; rfl))
        (hadvances.distinct distinct)
      rw [course_concat] at distinct ⊢
      obtain ⟨letters', composed', passed', keeps'⟩ := composed.keeps_goes lawful.coherent.named lawful.coherent.unique
        unhindered atOnce (respects events event [] rfl) distinct keeps
      refine ⟨letters', composed', unhindered.goes atOnce event, fun letter hm hp => ?_, keeps'⟩
      rcases passed' letter hm hp with hold | writes
      · obtain ⟨before, other, after, rfl, writes⟩ := passed letter hold hp
        exact ⟨before, other, after ++ [event], by rw [List.append_assoc]; rfl, writes⟩
      · exact ⟨events, event, [], rfl, writes⟩
  obtain ⟨letters, composed, -, passed, keeps⟩ := hcourse
  refine ⟨letters, fun id => ?_, passed, keeps.disciplined⟩
  have hsent := composed.accounted
  change ((course setup (fresh layer settings) events).client.history.filterMap Effect.called?).filterMap
    LayerCall.sent? = letters.map _ at hsent
  rw [handed_eq, hsent, List.filterMap_map]
  rfl

end Courses

/-! ## Where the discipline ends -/

/-- The same with one server that can be started. -/
def equipped : Setup (List String) :=
  { naming with servers := [("python", ⟨"Python", "python", [".py"], ["pylsp"], [], [], [], [], none⟩)] }

/-- The binding is connected to a session that is started for it. -/
def meeting (session answer : String) : List (Event (List String)) :=
  .call (.connect 0) :: .turn :: .turn :: heard session answer

/-- A file is bound, connected and opened. -/
def opening : List (Event (List String)) :=
  .bind [⟨"/w/a.py", "/w", some "python", none, none, false⟩] ::
    (meeting "s" "\x7b\"id\": 1, \"result\": \x7b\x7d\x7d" ++ [.call (.openBinding 0 "x"), .turn])

/-- A binding does not look whether its document is open: the server is told twice that it was opened. -/
theorem document_is_opened_twice :
    let events := opening ++ [.call (.openBinding 0 "y"), .turn]
    let client := (course equipped (fresh ["s"] Settings.standard) events).client
    let notices := [opened "file:///w/a.py" "python" 1 "x", opened "file:///w/a.py" "python" 1 "y"]
    (client.handed "s").drop 2 = notices.map print ∧ openBehind? notices "file:///w/a.py" = none := by
  refine ⟨?_, ?_⟩ <;> decide +kernel

/-- The session of the binding is stopped, and the binding is connected to another one. -/
def moving : List (Event (List String)) :=
  opening ++ [.call (.stop "s"), .turn] ++ heard "s" "\x7b\"id\": 2, \"result\": null\x7d" ++
    meeting "t" "\x7b\"id\": 3, \"result\": \x7b\x7d\x7d" ++ [.call (.updateBinding 0 "y"), .turn]

/-- A binding takes its document for open in the session it is connected to now: the server is told of a change, and was
not told that the document was opened. -/
theorem changed_without_being_opened :
    let client := (course equipped (fresh ["s", "t"] Settings.standard) moving).client
    let notices := [changed "file:///w/a.py" 1 "y"]
    (client.handed "t").drop 2 = notices.map print ∧ openBehind? notices "file:///w/a.py" = none := by
  refine ⟨?_, ?_⟩ <;> decide +kernel

end Engine

end LanguageSessions
