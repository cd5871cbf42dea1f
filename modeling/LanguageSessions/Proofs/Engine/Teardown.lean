import LanguageSessions.Proofs.Client.Discipline
import LanguageSessions.Proofs.Client.Teardown
import LanguageSessions.Proofs.Engine.OneSession
import LanguageSessions.Proofs.Engine.Owing

/-!
# The stop of a session always gets to its end

The call that begins the stop of a session either waits in it or has returned without a fault, and when it returns the
session is taken apart, whatever the process layer and the server do meanwhile and whatever else is called
(`stop_takes_the_session_apart`). In its turns it leaves alone whatever belongs to other sessions.

That holds where no other session is started under the identifier meanwhile, and the process layer does not end calls as
if they were cancelled; `stop_leaves_the_session_behind` shows what may happen otherwise.
-/

namespace LanguageSessions

/-! ## The registered session of an identifier -/

/-- No session was added under the identifier behind the one with the number. -/
def SessionRegistry.Newest (registry : SessionRegistry) (number : Nat) (id : String) : Prop :=
  ∀ n session, registry.session? n = some session → session.id = id → n ≤ number

/-- The newest session of an identifier was the newest one before. -/
theorem SessionRegistry.Advances.newest {before after : SessionRegistry} (h : before.Advances after) {number : Nat}
    {id : String} (hn : after.Newest number id) : before.Newest number id := by
  intro n session found hid
  obtain ⟨later, hlater, advances⟩ := h n session found
  exact hn n later hlater (advances.id.trans hid)

section Seats

variable {warrant : Warrant} {before after : Scene} {number : Nat} {id : String}

theorem Change.seated (h : Change warrant before after) (named : before.sessions.Named)
    (newest : after.sessions.Newest number id) (hs : before.sessions.Seated number id) :
    after.sessions.Seated number id := by
  cases h with
  | @noticed name n session notice reply listed found ready tells =>
    intro other hother hid
    change (before.sessions.modify n _).session? number = some other at hother
    rw [SessionRegistry.session?_modify] at hother
    split at hother
    · next hn =>
      subst hn
      rw [found] at hother
      cases hother
      have hname : session.id = name := named.id_of_number? listed found
      exact Or.inl (hname.symm.trans hid ▸ listed)
    · exact hs other hother hid
  | @enrolled session begins untold =>
    intro other hother hid
    change (before.sessions.numbers.set session.id before.sessions.sessions.length).get? id = some number ∨
      (before.sessions.numbers.set session.id before.sessions.sessions.length).get? id = none ∧ other.versions = []
    rw [Entries.get?_set]
    rcases SessionRegistry.session?_of_add hother with ⟨rfl, rfl⟩ | hold
    · exact Or.inl (if_pos hid)
    · rw [if_neg]
      · exact hs other hold hid
      · -- The new session would be a newer one with the identifier.
        intro hsame
        have hnew := before.sessions.session?_added session
        exact absurd (SessionRegistry.lt_length hold) (Nat.not_lt_of_le (newest _ session hnew hsame))
  | @advanced n session f found advances versions =>
    refine hs.modify fun other hother => ?_
    cases found.symm.trans hother
    exact ⟨advances.id, versions⟩
  | @dropped n session found overdue => exact (hs.remove session.id).modify fun _ _ => ⟨rfl, rfl⟩
  | _ => exact hs

theorem Changes.seated (h : Changes warrant before after) (named : before.sessions.Named)
    (newest : after.sessions.Newest number id) (hs : before.sessions.Seated number id) :
    after.sessions.Seated number id := by
  suffices hboth : after.sessions.Named ∧ (after.sessions.Newest number id → after.sessions.Seated number id) from
    hboth.2 newest
  clear newest
  induction h with
  | refl => exact ⟨named, fun _ => hs⟩
  | tail _ last ih =>
    exact ⟨last.named ih.1, fun newest => last.seated ih.1 newest (ih.2 (last.advances.newest newest))⟩

theorem Happens.seated (h : Happens warrant before after) (named : before.sessions.Named)
    (newest : after.sessions.Newest number id) (hs : before.sessions.Seated number id) :
    after.sessions.Seated number id := by
  cases h with
  | changes changes => exact changes.seated named newest hs
  | concludes changes attains => exact changes.seated named newest hs
  | binds rebinds => exact hs

end Seats

namespace Engine

open Client

variable {σ : Type}

/-- In the course of events the newest session of an identifier is the only one to be registered under it, and knows no
documents unless it is. -/
theorem seated_course (setup : Setup σ) (layer : σ) (settings : Settings) (events : List (Event σ)) {number : Nat}
    {id : String} (newest : (course setup (fresh layer settings) events).client.sessions.Newest number id) :
    (course setup (fresh layer settings) events).client.sessions.Seated number id := by
  have hcourse := scene_course setup layer settings
    (fun _ scene => scene.sessions.Newest number id → scene.sessions.Seated number id)
    (fun _ session found => nomatch found) ?_ events
  · obtain ⟨letters, -, hseated⟩ := hcourse
    exact hseated newest
  · intro events event letters letters' composed hold happens newest
    have hbefore := happens.advances.newest newest
    exact happens.seated (named_course setup layer settings events) newest (hold hbefore)

theorem hosts_course (setup : Setup σ) (layer : σ) (settings : Settings) (events : List (Event σ)) {number : Nat}
    {session : Session}
    (newest : (course setup (fresh layer settings) events).client.sessions.Newest number session.id)
    (found : (course setup (fresh layer settings) events).client.sessions.session? number = some session) :
    (course setup (fresh layer settings) events).client.tables.Hosts number session where
  found := ⟨session, found, rfl⟩
  seated := seated_course setup layer settings events newest
  apart := (pledged_course setup layer settings events).apart

/-! ## The task of a stop -/

/-- A task stops a session: it waits in the stop, which nobody broke off, or it has returned. -/
inductive Stopping (number : Nat) (id : String) (pending : Pending) : TaskState → Prop where
  | waiting {phase : StopPhase} (unbroken : phase.Unbroken number id pending) :
      Stopping number id pending (.waiting (.stopping phase))
  | finished : Stopping number id pending (.finished (.ok .nothing))

/-- In an event a task has a turn of its own: it begins, or it goes on. -/
def HasTurn (engine : Engine (σ × List Exchange)) (event : Event σ) (task : Nat) : Prop :=
  (∃ operation, engine.Begins event task operation) ∨ ∃ activity, engine.GoesOn event task activity

/-- A turn of a task that stops a session leaves alone what belongs to other sessions. Where the task waits behind it,
it waits for a ticket that was given out in this turn or for a promise that has no outcome; and where it returns, the
session is taken apart. -/
structure GetsOn (number task : Nat) (session : Session) (before later : Engine (σ × List Exchange)) : Prop where
  spares : before.client.tables.Spares session.id later.client.tables
  waits : ∀ phase, later.Waits task (.stopping phase) →
    Fresh before.client later.client phase.signal ∧ phase.signal.Outstanding later.client.pending
  returns : ∀ outcome cancelled, later.tasks[task]? = some ⟨.finished outcome, cancelled⟩ →
    later.client.tables.TornDown number session

section Tasks

variable {engine : Engine (σ × List Exchange)} {setup : Setup σ} {number task : Nat} {session : Session}
  {state : TaskState}

/-- The stop has got on. -/
theorem getsOn_afterTask {step : Client (σ × List Exchange) × Progress StopPhase Unit}
    (h : Tears number session engine.client.tables step) (hf : Proceeds StopPhase.signal engine.client step)
    (hlt : task < engine.tasks.length) :
    (∃ state, (engine.afterTask task (silently .stopping step)).tasks[task]? = some ⟨state, false⟩ ∧
      Stopping number session.id (engine.afterTask task (silently .stopping step)).client.pending state) ∧
    GetsOn number task session engine (engine.afterTask task (silently .stopping step)) := by
  obtain ⟨client, phase | outcome⟩ := step
  · obtain ⟨unbroken, outstanding⟩ := h.waits phase rfl
    refine ⟨⟨_, List.getElem?_set_self hlt, .waiting unbroken⟩, h.spares, ?_, ?_⟩
    · rintro other ⟨cancelled, hother⟩
      cases hother.symm.trans (List.getElem?_set_self hlt)
      exact ⟨hf.fresh phase rfl, outstanding⟩
    · intro outcome cancelled hfinished
      cases hfinished.symm.trans (List.getElem?_set_self hlt)
  · obtain ⟨rfl, torn⟩ := h.ends outcome rfl
    refine ⟨⟨_, List.getElem?_set_self hlt, .finished⟩, h.spares, ?_, fun _ _ _ => torn⟩
    rintro phase ⟨cancelled, hwaits⟩
    cases hwaits.symm.trans (List.getElem?_set_self hlt)

/-- The turns to come do not matter. -/
theorem GetsOn.of_withQueue {queue : List Turn} {later : Engine (σ × List Exchange)}
    (h : GetsOn number task session (engine.withQueue queue) later) : GetsOn number task session engine later :=
  ⟨h.spares, h.waits, h.returns⟩

/-- A session that has advanced is the same one. -/
theorem GetsOn.of_advances {earlier : Session} {later : Engine (σ × List Exchange)}
    (h : GetsOn number task session engine later) (ha : earlier.Advances session) :
    GetsOn number task earlier engine later :=
  ⟨ha.id ▸ h.spares, h.waits, fun outcome cancelled hf => (h.returns outcome cancelled hf).of_advances ha⟩

/-- The task of a stop begins. -/
theorem getsOn_begins (hstops : setup.layer.StopsUncancelled) (hsends : setup.layer.SendsUncancelled)
    (hosts : engine.client.tables.Hosts number session)
    (begins : engine.Begins (.turn : Event σ) task (.stop session.id))
    (listed : engine.client.sessions.number? session.id = some number)
    (found : engine.client.sessions.session? number = some session) (live : session.stage.isEnding = false) :
    (∃ state, (engine.goes setup .turn).tasks[task]? = some ⟨state, false⟩ ∧
      Stopping number session.id (engine.goes setup .turn).client.pending state) ∧
    GetsOn number task session engine (engine.goes setup .turn) := by
  have hlt : task < engine.tasks.length := (List.getElem?_eq_some_iff.1 begins.2.2).1
  obtain ⟨queue, hgoes⟩ : ∃ queue, engine.goes setup .turn = (engine.withQueue queue).afterTask task
      (silently .stopping ((engine.withQueue queue).client.stop setup.recorded session.id)) :=
    goes_of_begins setup begins
  have htears : Tears number session (engine.withQueue queue).client.tables _ :=
    tears_stop hstops hsends hosts listed found live
  obtain ⟨hstate, hgets⟩ := getsOn_afterTask htears (proceeds_stop _ setup.recorded session.id) hlt
  rw [hgoes]
  exact ⟨hstate, hgets.of_withQueue⟩

/-- The task of a stop goes on. -/
theorem getsOn_resumeTask (hstops : setup.layer.StopsUncancelled) (hsends : setup.layer.SendsUncancelled)
    (hosts : engine.client.tables.Hosts number session)
    (found : engine.client.sessions.session? number = some session) {phase : StopPhase}
    (unbroken : phase.Unbroken number session.id engine.client.pending)
    (ht : engine.tasks[task]? = some ⟨.waiting (.stopping phase), false⟩) :
    (∃ state, (engine.resumeTask setup.recorded task).tasks[task]? = some ⟨state, false⟩ ∧
      Stopping number session.id (engine.resumeTask setup.recorded task).client.pending state) ∧
    GetsOn number task session engine (engine.resumeTask setup.recorded task) := by
  have hresume : engine.resumeTask setup.recorded task = engine.afterTask task
      (silently .stopping (engine.client.resumeStop setup.recorded false phase)) := by
    rw [Engine.resumeTask, ht]
    rfl
  rw [hresume]
  exact getsOn_afterTask (tears_resumeStop hstops hsends hosts found unbroken)
    (engine.client.proceeds_resumeStop setup.recorded false phase) (List.getElem?_eq_some_iff.1 ht).1

/-- A stop stays unbroken while nobody cancels its task. -/
theorem Stopping.lasts (hs : Stopping number session.id engine.client.pending state) (hp : engine.Pledged)
    (ht : engine.tasks[task]? = some ⟨state, false⟩) {event : Event σ} (hne : event ≠ .cancel task) :
    Stopping number session.id (engine.goes setup event).client.pending state := by
  cases hs with
  | finished => exact .finished
  | @waiting phase unbroken =>
    refine .waiting (unbroken.lasts (honours_goes setup event).keeps.lasts hp.apart fun promise hpromise => ?_)
    exact hp.not_quits ⟨.stopping phase, ⟨false, ht⟩, hpromise⟩ hne

/-- In an event in which it does not go on the task of a stop stays as it is, unless it is cancelled. -/
theorem Stopping.stays (hs : Stopping number session.id engine.client.pending state)
    (ht : engine.tasks[task]? = some ⟨state, false⟩) {event : Event σ} (hne : event ≠ .cancel task)
    (idle : ∀ activity, ¬ engine.GoesOn event task activity) :
    (engine.goes setup event).tasks[task]? = engine.tasks[task]? := by
  cases event with
  | call operation => exact List.getElem?_append_left (List.getElem?_eq_some_iff.1 ht).1
  | cancel number => exact engine.getElem?_cancel_of_ne fun heq => hne (by rw [heq])
  | turn =>
    change (engine.next setup.recorded).tasks[task]? = _
    rcases next_cases engine setup.recorded with heq | ⟨turn, queue, hq, heq⟩
    · rw [heq]
    · rw [heq]
      rcases (engine.withQueue queue).task_perform setup.recorded turn task with
        hsame | ⟨-, heq⟩ | ⟨signal, hw, hf, heq⟩
      · exact hsame
      · rw [heq, Engine.beginTask, show (engine.withQueue queue).tasks[task]? = _ from ht]
        cases hs <;> rfl
      · cases hs with
        | @waiting phase unbroken =>
          exact absurd ⟨rfl, ⟨signal, queue, hw ▸ hq, hf⟩, false, ht⟩ (idle (.stopping phase))
        | finished =>
          rw [heq, Engine.resumeTask, show (engine.withQueue queue).tasks[task]? = _ from ht]
          rfl
  | expire _ | moveClock _ | layer _ _ _ | hear _ | listen _ | bind _ | reorder _ => rfl

/-- **The stop gets on through every event** but the cancelling of its own task. -/
theorem Stopping.goes (hstops : setup.layer.StopsUncancelled) (hsends : setup.layer.SendsUncancelled)
    (hp : engine.Pledged) (hosts : engine.client.tables.Hosts number session)
    (found : engine.client.sessions.session? number = some session)
    (hs : Stopping number session.id engine.client.pending state) (ht : engine.tasks[task]? = some ⟨state, false⟩)
    {event : Event σ} (hne : event ≠ .cancel task) :
    (∃ state', (engine.goes setup event).tasks[task]? = some ⟨state', false⟩ ∧
      Stopping number session.id (engine.goes setup event).client.pending state') ∧
    ((∃ activity, engine.GoesOn event task activity) →
      GetsOn number task session engine (engine.goes setup event)) := by
  by_cases hgoes : ∃ activity, engine.GoesOn event task activity
  · obtain ⟨activity, goesOn⟩ := hgoes
    obtain ⟨queue, hresume⟩ := goes_of_goesOn setup goesOn
    obtain ⟨-, -, cancelled, hwaits⟩ := goesOn
    cases ht.symm.trans hwaits
    cases hs with
    | @waiting phase unbroken =>
      obtain ⟨hstate, hgets⟩ :
        (∃ state, ((engine.withQueue queue).resumeTask setup.recorded task).tasks[task]? = some ⟨state, false⟩ ∧ _) ∧
          GetsOn number task session (engine.withQueue queue) _ :=
        getsOn_resumeTask hstops hsends hosts found unbroken ht
      rw [hresume]
      exact ⟨hstate, fun _ => hgets.of_withQueue⟩
  · refine ⟨⟨state, ?_, hs.lasts hp ht hne⟩, fun hg => absurd hg hgoes⟩
    rw [hs.stays ht hne fun activity hg => hgoes ⟨activity, hg⟩, ht]

end Tasks

/-! ## In the course of events -/

section Course

variable (setup : Setup σ) (layer : σ) (settings : Settings)

/-- The newest session of an identifier was the newest one up to any point. -/
theorem newest_course (events more : List (Event σ)) {number : Nat} {id : String}
    (newest : (course setup (fresh layer settings) (events ++ more)).client.sessions.Newest number id) :
    (course setup (fresh layer settings) events).client.sessions.Newest number id :=
  (passes_course setup layer settings events more).advances.newest newest

/-- A session that is there is there later on, further advanced. -/
theorem session?_course (events more : List (Event σ)) {number : Nat} {session : Session}
    (found : (course setup (fresh layer settings) events).client.sessions.session? number = some session) :
    ∃ current, (course setup (fresh layer settings) (events ++ more)).client.sessions.session? number = some current ∧
      session.Advances current :=
  (passes_course setup layer settings events more).advances number session found

section Stops

variable (hstops : setup.layer.StopsUncancelled) (hsends : setup.layer.SendsUncancelled) (before after : List (Event σ))
  {task number : Nat} {session : Session}
  (begins : (course setup (fresh layer settings) before).Begins (.turn : Event σ) task (.stop session.id))
  (listed : (course setup (fresh layer settings) before).client.sessions.number? session.id = some number)
  (found : (course setup (fresh layer settings) before).client.sessions.session? number = some session)
  (live : session.stage.isEnding = false) (uncancelled : .cancel task ∉ after)
  (newest : (course setup (fresh layer settings) (before ++ .turn :: after)).client.sessions.Newest number session.id)

include hstops hsends begins listed found live uncancelled newest

/-- Behind the turn in which it begins, the stop is under way or over. -/
theorem stopping_course :
    let engine := course setup (fresh layer settings) (before ++ .turn :: after)
    ∃ state, engine.tasks[task]? = some ⟨state, false⟩ ∧
      Stopping number session.id engine.client.pending state := by
  induction after using List.reverseRecOn with
  | nil =>
    have hosts := hosts_course setup layer settings before
      (newest_course setup layer settings before [.turn] newest) found
    rw [course_concat]
    exact (getsOn_begins hstops hsends hosts begins listed found live).1
  | append_singleton after event ih =>
    rw [← List.cons_append, ← List.append_assoc] at newest ⊢
    have hnewest := newest_course setup layer settings _ [event] newest
    obtain ⟨state, ht, hs⟩ := ih (fun hm => uncancelled (List.mem_append_left _ hm)) hnewest
    obtain ⟨current, hcurrent, advances⟩ := session?_course setup layer settings before (.turn :: after) found
    have hne : event ≠ .cancel task := fun heq => uncancelled (by simp [heq])
    rw [← advances.id] at hs hnewest ⊢
    have hosts := hosts_course setup layer settings _ hnewest hcurrent
    rw [course_concat]
    exact (hs.goes hstops hsends (pledged_course setup layer settings _) hosts hcurrent ht hne).1

/-- In each of its turns the stop gets on, and between them its task stays as it is. -/
theorem getsOn_course (passed : List (Event σ)) (event : Event σ) (rest : List (Event σ))
    (split : .turn :: after = passed ++ event :: rest) :
    ((course setup (fresh layer settings) (before ++ passed)).HasTurn event task →
      GetsOn number task session (course setup (fresh layer settings) (before ++ passed))
        ((course setup (fresh layer settings) (before ++ passed)).goes setup event)) ∧
    (¬ (course setup (fresh layer settings) (before ++ passed)).HasTurn event task →
      ((course setup (fresh layer settings) (before ++ passed)).goes setup event).tasks[task]? =
        (course setup (fresh layer settings) (before ++ passed)).tasks[task]?) := by
  rw [split] at newest
  have hnewest : (course setup (fresh layer settings) (before ++ passed)).client.sessions.Newest number session.id := by
    rw [← List.append_assoc] at newest
    exact newest_course setup layer settings _ _ newest
  cases passed with
  | nil =>
    obtain ⟨rfl, rfl⟩ := List.cons.inj split
    rw [List.append_nil] at hnewest ⊢
    have hosts := hosts_course setup layer settings before hnewest found
    exact ⟨fun _ => (getsOn_begins hstops hsends hosts begins listed found live).2,
      fun hidle => absurd (Or.inl ⟨_, begins⟩) hidle⟩
  | cons first passed =>
    obtain ⟨rfl, rfl⟩ := List.cons.inj split
    obtain ⟨state, ht, hs⟩ := stopping_course setup layer settings hstops hsends before passed begins listed found live
      (fun hm => uncancelled (List.mem_append_left _ hm)) hnewest
    obtain ⟨current, hcurrent, advances⟩ := session?_course setup layer settings before (.turn :: passed) found
    have hne : event ≠ .cancel task := fun heq => uncancelled (by simp [heq])
    rw [← advances.id] at hs hnewest
    have hosts := hosts_course setup layer settings _ hnewest hcurrent
    refine ⟨fun hturn => ?_, fun hidle => hs.stays ht hne fun activity hg => hidle (Or.inr ⟨activity, hg⟩)⟩
    have hgoesOn : ∃ activity, (course setup (fresh layer settings) (before ++ .turn :: passed)).GoesOn event task
        activity := by
      refine hturn.resolve_left ?_
      rintro ⟨operation, -, -, ready⟩
      cases ht.symm.trans ready
      cases hs
    have hgets := (hs.goes hstops hsends (pledged_course setup layer settings _) hosts hcurrent ht hne).2 hgoesOn
    exact hgets.of_advances advances

/-- **While the stop waits, a turn of it is to come or its signal is owed**, as long as no turn is lost. -/
theorem owed_course (keeps : KeepsTurns setup (fresh layer settings) (before ++ .turn :: after)) :
    ∀ phase, (course setup (fresh layer settings) (before ++ .turn :: after)).Waits task (.stopping phase) →
      .wake phase.signal ∈ (course setup (fresh layer settings) (before ++ .turn :: after)).client.queue ∨
        Owed setup (fresh layer settings) (before ++ .turn :: after) phase.signal := by
  -- In its own turn the stop begins to wait for something that is owed.
  have howes : ∀ passed event rest, .turn :: after = passed ++ event :: rest →
      (course setup (fresh layer settings) (before ++ passed)).HasTurn event task →
      ∀ phase, (course setup (fresh layer settings) (before ++ passed ++ [event])).Waits task (.stopping phase) →
        Owed setup (fresh layer settings) (before ++ passed ++ [event]) phase.signal := by
    intro passed event rest split hturn phase hwaits
    have hgets := (getsOn_course setup layer settings hstops hsends before after begins listed found live uncancelled
      newest passed event rest split).1 hturn
    obtain rfl : event = .turn := by
      rcases hturn with ⟨operation, heq, -⟩ | ⟨activity, heq, -⟩ <;> exact heq
    rw [course_concat] at hwaits
    obtain ⟨hfresh, outstanding⟩ := hgets.waits phase hwaits
    refine owed_of_fresh ?_ ?_ <;> rw [course_concat]
    · exact hfresh
    · exact outstanding
  induction after using List.reverseRecOn with
  | nil =>
    intro phase hwaits
    have hhere := howes [] .turn [] rfl (Or.inl ⟨_, by rwa [List.append_nil]⟩) phase
    rw [List.append_nil] at hhere
    exact Or.inr (hhere hwaits)
  | append_singleton after event ih =>
    intro phase hwaits
    have hsplit : (.turn :: (after ++ [event]) : List (Event σ)) = (.turn :: after) ++ event :: [] := rfl
    have hlist : before ++ .turn :: (after ++ [event]) = before ++ .turn :: after ++ [event] := by simp
    by_cases hturn : (course setup (fresh layer settings) (before ++ .turn :: after)).HasTurn event task
    · rw [hlist] at hwaits ⊢
      exact Or.inr (howes (.turn :: after) event [] hsplit hturn phase hwaits)
    · have hsame := (getsOn_course setup layer settings hstops hsends before (after ++ [event]) begins listed found live
        uncancelled newest (.turn :: after) event [] hsplit).2 hturn
      rw [hlist] at hwaits keeps newest ⊢
      rw [course_concat] at hwaits
      obtain ⟨cancelled, hwaits⟩ := hwaits
      have hbefore : (course setup (fresh layer settings) (before ++ .turn :: after)).Waits task (.stopping phase) :=
        ⟨cancelled, hsame.symm.trans hwaits⟩
      have hearlier := ih (fun hm => uncancelled (List.mem_append_left _ hm))
        (newest_course setup layer settings _ [event] newest) keeps.concat.1
        (fun passed other rest split => howes passed other (rest ++ [event]) (by rw [hsplit, split]; simp))
        phase hbefore
      exact to_come_or_owed (pledged_course setup layer settings _) (tickets_course setup layer settings _) keeps
        hbefore (fun activity hg => hturn (Or.inr ⟨activity, hg⟩)) hearlier

end Stops

/-- **The stop of a session always gets to its end.** A call begins the stop of a session that is being set up or
ready, and is not cancelled, and no other session is started under the identifier. Then it has returned, and not with a
fault, or it waits in the stop; and as long as no turn is lost it does not wait in vain: a turn of it is to come, or it
waits for the process layer, or for a promise that has no outcome. In each of its turns it leaves alone whatever belongs
to other sessions, and in the event in which it returns the session is taken apart. -/
theorem stop_takes_the_session_apart (hstops : setup.layer.StopsUncancelled) (hsends : setup.layer.SendsUncancelled)
    (before after : List (Event σ)) {task number : Nat} {session : Session}
    (begins : (course setup (fresh layer settings) before).Begins (.turn : Event σ) task (.stop session.id))
    (listed : (course setup (fresh layer settings) before).client.sessions.number? session.id = some number)
    (found : (course setup (fresh layer settings) before).client.sessions.session? number = some session)
    (live : session.stage = .initializing ∨ session.stage = .ready) (uncancelled : .cancel task ∉ after)
    (newest :
      (course setup (fresh layer settings) (before ++ .turn :: after)).client.sessions.Newest number session.id) :
    (∃ state, (course setup (fresh layer settings) (before ++ .turn :: after)).tasks[task]? = some ⟨state, false⟩ ∧
      (state = .finished (.ok .nothing) ∨ ∃ phase, state = .waiting (.stopping phase) ∧ phase.session = number ∧
        (KeepsTurns setup (fresh layer settings) (before ++ .turn :: after) →
          .wake phase.signal ∈ (course setup (fresh layer settings) (before ++ .turn :: after)).client.queue ∨
            Owed setup (fresh layer settings) (before ++ .turn :: after) phase.signal))) ∧
    ∀ passed event rest, .turn :: after = passed ++ event :: rest →
      let engine := course setup (fresh layer settings) (before ++ passed)
      let later := engine.goes setup event
      (engine.HasTurn event task → engine.client.tables.Spares session.id later.client.tables) ∧
      ((∀ outcome, engine.tasks[task]? ≠ some ⟨.finished outcome, false⟩) →
        ∀ outcome, later.tasks[task]? = some ⟨.finished outcome, false⟩ →
          later.client.tables.TornDown number session) := by
  have hlive : session.stage.isEnding = false := by
    rcases live with hstage | hstage <;> rw [hstage] <;> rfl
  refine ⟨?_, fun passed event rest hsplit => ?_⟩
  · obtain ⟨state, ht, hs⟩ := stopping_course setup layer settings hstops hsends before after begins listed found hlive
      uncancelled newest
    refine ⟨state, ht, ?_⟩
    cases hs with
    | @waiting phase unbroken =>
      refine Or.inr ⟨phase, rfl, unbroken.1, fun keeps => ?_⟩
      exact owed_course setup layer settings hstops hsends before after begins listed found hlive uncancelled newest
        keeps phase ⟨false, ht⟩
    | finished => exact Or.inl rfl
  · intro engine later
    obtain ⟨hturn, hidle⟩ := getsOn_course setup layer settings hstops hsends before after begins listed found hlive
      uncancelled newest passed event rest hsplit
    refine ⟨fun hacts => (hturn hacts).spares, fun unfinished outcome hfinished => ?_⟩
    by_cases hacts : engine.HasTurn event task
    · exact (hturn hacts).returns outcome false hfinished
    · exact absurd ((hidle hacts).symm.trans hfinished) (unfinished outcome)

end Course

/-! ## Stops with and without trouble -/

/-- Whether a task has ended with a fault, if it has ended. -/
def failed? (task : Task) : Option Bool :=
  match task.state with
  | .finished (.ok _) => some false
  | .finished (.error _) => some true
  | .ready _ | .waiting _ => none

/-- A session is ready, and is to be stopped. -/
def parting : List (Event Unit) := greeting.take 8 ++ [.call (.stop "s")]

/-- The server answers that it shuts down. -/
def shutsDown : Event Unit := .hear ⟨"s", "\x7b\"id\": 2, \"result\": null\x7d"⟩

/-- The session is ready before it is stopped. When the server has answered the stop returns, and the session is taken
apart. -/
theorem answered_session_is_taken_apart :
    ∃ session, (course prompt (fresh () Settings.standard) parting).client.sessions.session? 0 = some session ∧
      session.stage = .ready ∧
      ((course prompt (fresh () Settings.standard) (parting ++ [.turn, shutsDown])).goes prompt
        .turn).client.tables.TornDown 0 session := by
  have hlength : (course prompt (fresh () Settings.standard) (greeting.take 8)).tasks.length = 1 := by decide +kernel
  have hready : (course prompt (fresh () Settings.standard) parting).tasks[1]? = some ⟨.ready (.stop "s"), false⟩ := by
    unfold parting
    rw [course_concat]
    generalize course prompt (fresh () Settings.standard) (greeting.take 8) = engine at hlength
    exact hlength ▸ List.getElem?_concat_length
  have hqueue : (course prompt (fresh () Settings.standard) parting).client.queue = [.begin 1] := by decide +kernel
  have hlisted : (course prompt (fresh () Settings.standard) parting).client.sessions.number? "s" = some 0 := by
    decide +kernel
  have hsession : ((course prompt (fresh () Settings.standard) parting).client.sessions.session? 0).map
      (fun session => (session.id, session.stage)) = some ("s", .ready) := by decide +kernel
  have hone : (course prompt (fresh () Settings.standard)
      (parting ++ .turn :: [shutsDown, .turn])).client.sessions.sessions.length = 1 := by decide +kernel
  have hwaits : (course prompt (fresh () Settings.standard) (parting ++ [.turn, shutsDown])).tasks[1]?.map
      Task.isRunning = some true := by decide +kernel
  have hreturns : ((course prompt (fresh () Settings.standard) (parting ++ [.turn, shutsDown])).goes prompt
      .turn).tasks[1]?.map (fun task => (task.isRunning, task.isCancelled)) = some (false, false) := by
    decide +kernel
  obtain ⟨session, found, hsession⟩ := Option.map_eq_some_iff.1 hsession
  obtain ⟨hid, hstage⟩ := Prod.mk.inj hsession
  have hnewest : (course prompt (fresh () Settings.standard)
      (parting ++ .turn :: [shutsDown, .turn])).client.sessions.Newest 0 session.id := by
    intro n other hother _
    have hn := SessionRegistry.lt_length hother
    omega
  have hbegins : (course prompt (fresh () Settings.standard) parting).Begins (.turn : Event Unit) 1
      (.stop session.id) := ⟨rfl, ⟨[], hqueue⟩, hid ▸ hready⟩
  obtain ⟨-, hevents⟩ := stop_takes_the_session_apart prompt () Settings.standard (fun _ _ _ => ⟨nofun, nofun⟩)
    (fun _ _ _ _ => ⟨nofun, nofun⟩) parting [shutsDown, .turn] hbegins (hid ▸ hlisted) found (Or.inr hstage)
    (by simp [shutsDown]) hnewest
  obtain ⟨-, htorn⟩ := hevents [.turn, shutsDown] .turn [] rfl
  refine ⟨session, found, hstage, ?_⟩
  -- The engine is opaque from here on: what its run computes to does not matter any more.
  generalize course prompt (fresh () Settings.standard) (parting ++ [.turn, shutsDown]) = engine
    at hwaits hreturns htorn ⊢
  obtain ⟨⟨state, cancelled⟩, hfinal, hreturns⟩ := Option.map_eq_some_iff.1 hreturns
  obtain ⟨hfinished, hcancelled⟩ := Prod.mk.inj hreturns
  cases hcancelled
  cases state with
  | finished outcome =>
    refine htorn (fun outcome hover => ?_) outcome hfinal
    rw [hover] at hwaits
    cases hwaits
  | ready _ => cases hfinished
  | waiting _ => cases hfinished

/-- Somebody opens a document of the session before it is stopped, and starts another session meanwhile, which the
process layer gives the same identifier. -/
def succeeded : List (Event Unit) :=
  greeting.take 8 ++ [.call (.openDocument "s" "/w/a.py" "python" "x"), .turn, .call (.stop "s"), .turn,
    .call (.start "python" "/x"), .turn, .turn, .hear ⟨"s", "\x7b\"id\": 3, \"result\": \x7b\x7d\x7d"⟩,
    .turn, .turn, .turn, .turn, shutsDown]

/-- The process layer ends a call as if it had been cancelled, and does all else at once. -/
def quitting (quits : LayerCall) : Setup Unit where
  layer :=
    { call := fun _ _ call => ⟨(), if call = quits then .raises .cancelled else .returns (willing call), []⟩
      resume := fun _ _ _ => ⟨(), .waits, []⟩ }
  surroundings := ⟨"/", "/home", []⟩
  servers := []

/-- A stop may leave its session behind. If another session was started under the identifier, that one is taken out of
the registry when the stop returns, and the one that was stopped still knows its documents. And if the process layer
breaks off the call in which it stops the server or is handed the shutdown, then the stop ends with that, though nobody
cancelled it, and the session stays registered. -/
theorem stop_leaves_the_session_behind :
    ((course prompt (fresh () Settings.standard) succeeded).tasks[2]?.map failed? = some none ∧
      (course prompt (fresh () Settings.standard) succeeded).client.sessions.numbers = [("s", 1)] ∧
      ((course prompt (fresh () Settings.standard) succeeded).goes prompt .turn).tasks[2]?.map failed? =
        some (some false) ∧
      ((course prompt (fresh () Settings.standard) succeeded).goes prompt .turn).client.sessions.numbers = [] ∧
      ((course prompt (fresh () Settings.standard) succeeded).goes prompt .turn).client.sessions.sessions.map
        (fun session => (session.root, session.stage, session.versions)) =
          [("/w", .stopped, [("file:///w/a.py", 1)]), ("/x", .ready, [])]) ∧
    ∀ quits ∈ [LayerCall.stop "s", .send "s" (Message.request (.int 2) "shutdown" .null).print],
      let engine := course (quitting quits) (fresh () Settings.standard) (parting ++ [.turn, shutsDown, .turn])
      engine.tasks[1]?.map failed? = some (some true) ∧
        engine.client.sessions.numbers = [("s", 0)] ∧
        engine.client.sessions.sessions.map (·.stage) = [.shuttingDown] := by
  decide +kernel

end Engine

end LanguageSessions
