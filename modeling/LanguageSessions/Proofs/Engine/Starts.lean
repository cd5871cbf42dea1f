import LanguageSessions.Proofs.Client.Yields
import LanguageSessions.Proofs.Engine.Lifecycle
import LanguageSessions.Proofs.Engine.Statuses

/-!
# What a start gives back

An attempt stays an attempt for its language and root: it is found under them while it is under way, the session that it
is at work on is for them, and when it has ended well a session for them was ready (`Keyed`, `keyed_course`). A call to
start a session waits for an attempt for its own language and the normal form of its root (`Starting`), so what it gives
back is the identifier of a session for them that was ready (`CalledFor.starting`).
-/

namespace LanguageSessions

namespace Engine

open Client

variable {σ : Type}

/-! ## Attempts for a language and a root -/

/-- Every attempt that is under way is found under its own key, and the session that it is at work on is for that key and
not ready. Identifiers of sessions that were ready are what attempts ended well with. -/
structure Keyed (ready : String × String → String → Prop) (engine : Engine σ) : Prop where
  attempting : ∀ number phase session, engine.attempts.get? number = some phase → phase.session? = some session →
    ∃ attempt, engine.client.attempts[number]? = some attempt ∧ engine.client.sessions.Serves session attempt.key
  ended : engine.client.EndedReady ready
  under : ∀ key number, engine.client.starting.get? key = some number → engine.client.HasAttempt number key

section Keyed

variable {ready : String × String → String → Prop} {engine later : Engine σ} {setup : Setup σ} {number : Nat}
  {attempt : Attempt}

theorem keyed_new (ready : String × String → String → Prop) (layer : σ) (settings : Settings) :
    Keyed ready (Engine.new (Client.new layer settings)) where
  attempting _ _ _ found := by cases found
  ended _ _ _ found := by cases found
  under _ _ found := by cases found

theorem Keyed.weaken (h : engine.Keyed ready) {ready' : String × String → String → Prop}
    (hr : ∀ key id, ready key id → ready' key id) : engine.Keyed ready' :=
  ⟨h.attempting, fun number attempt id found ended => hr _ _ (h.ended number attempt id found ended), h.under⟩

/-- The attempts stay what they are; one that waits was waiting, or it has come to be at work on a session for its key. -/
theorem Keyed.stays (h : engine.Keyed ready) (stays : Stays engine.client later.client)
    (attempting : ∀ number phase session, later.attempts.get? number = some phase → phase.session? = some session →
      (engine.attempts.get? number = some phase ∧
        ∀ key, engine.client.sessions.Serves session key → later.client.sessions.Serves session key) ∨
      ∃ attempt, engine.client.attempts[number]? = some attempt ∧ later.client.sessions.Serves session attempt.key) :
    later.Keyed ready where
  attempting number phase session hp hs := by
    obtain ⟨attempt, found, serves⟩ :
        ∃ attempt, engine.client.attempts[number]? = some attempt ∧ later.client.sessions.Serves session attempt.key := by
      rcases attempting number phase session hp hs with ⟨hp, hserves⟩ | hnew
      · obtain ⟨attempt, found, serves⟩ := h.attempting number phase session hp hs
        exact ⟨attempt, found, hserves _ serves⟩
      · exact hnew
    obtain ⟨attempt', found', gist⟩ := stays.found found
    have hkey : attempt'.key = attempt.key := congrArg Prod.fst gist
    exact ⟨attempt', found', hkey ▸ serves⟩
  ended number attempt' id found' ended := by
    obtain ⟨attempt, found, gist⟩ := stays.found_before found'
    have hkey : attempt.key = attempt'.key := congrArg Prod.fst gist
    have houtcome : attempt.outcome = attempt'.outcome := congrArg Prod.snd gist
    exact hkey ▸ h.ended number attempt id found (houtcome.trans ended)
  under key number hs := (h.under key number (stays.starting ▸ hs)).stays stays

/-- An attempt is launched for its own key. -/
theorem Keyed.launches (h : engine.Keyed ready) (attempts : later.attempts = engine.attempts) {key : String × String}
    (launches : Launches key engine.client later.client) : later.Keyed ready := by
  have hold : ∀ number key, engine.client.HasAttempt number key → later.client.HasAttempt number key :=
    fun number key ⟨attempt, found, hkey⟩ => ⟨attempt, launches.attempt found, hkey⟩
  refine ⟨fun number phase session hp hs => ?_, fun number attempt id found ended => ?_, fun other number hs => ?_⟩
  · obtain ⟨attempt, found, serves⟩ := h.attempting number phase session (attempts ▸ hp) hs
    exact ⟨attempt, launches.attempt found, launches.sessions ▸ serves⟩
  · obtain ⟨new, hattempts, -, unended, -⟩ := launches.attempts
    rw [hattempts, List.getElem?_append] at found
    split at found
    · exact h.ended number attempt id found ended
    · cases List.mem_singleton.1 (List.mem_of_getElem? found)
      cases unended.symm.trans ended
  · rw [launches.starting, Entries.get?_set] at hs
    split at hs
    · next heq =>
      cases hs
      obtain ⟨new, found, hkey, -⟩ := launches.running_new
      exact ⟨new, found, hkey.trans heq⟩
    · exact hold number other (h.under other number hs)

/-- Attempts stay for their keys when one of them ends. -/
theorem hasAttempt_ended {client : Client σ} {key : String × String} {n : Nat} (has : client.HasAttempt n key)
    (outcome : Except Fault String) (joiners : List Joiner) :
    (client.ended number outcome joiners).HasAttempt n key := by
  obtain ⟨attempt, found, rfl⟩ := has
  refine ⟨_, (List.getElem?_modify ..).trans (congrArg _ found), ?_⟩
  dsimp only
  split <;> rfl

/-- An attempt ends, where its session is ready if it ends well. -/
theorem Keyed.ends (h : engine.Keyed ready) (gone : engine.attempts.get? number = none)
    (found : engine.client.attempts[number]? = some attempt) {outcome : Except Fault String}
    (yields : ∀ id, outcome = .ok id → ready attempt.key id) (joiners : List Joiner) :
    Keyed ready { engine with client := engine.client.ended number outcome joiners } := by
  have hlater : ∀ n, (engine.client.ended number outcome joiners).attempts[n]? =
      (engine.client.attempts[n]?).map fun other =>
        if number = n then { other with outcome := some outcome, joiners := [] } else other := by
    intro n
    refine List.getElem?_modify .. |>.trans ?_
    cases engine.client.attempts[n]? <;> rfl
  refine ⟨fun n phase session hp hs => ?_, fun n other id hother ended => ?_, fun key n hs => ?_⟩
  · obtain ⟨other, hother, serves⟩ := h.attempting n phase session hp hs
    refine ⟨other, (hlater n).trans ?_, serves⟩
    rw [hother, Option.map_some, if_neg]
    rintro rfl
    exact nomatch gone.symm.trans hp
  · obtain ⟨earlier, hearlier, rfl⟩ := Option.map_eq_some_iff.1 ((hlater n).symm.trans hother)
    by_cases hn : number = n
    · rw [if_pos hn] at ended ⊢
      subst hn
      cases found.symm.trans hearlier
      exact yields id (Option.some.inj ended)
    · rw [if_neg hn] at ended ⊢
      exact h.ended n earlier id hearlier ended
  · exact hasAttempt_ended (h.under key n hs) outcome joiners

/-- An attempt has got on, which yields what is for its own key; no other one is at work on its own session. -/
theorem Keyed.afterAttempt (h : engine.Keyed ready) (found : engine.client.attempts[number]? = some attempt)
    {own : Option Nat} {step : Client σ × Progress AttemptPhase String}
    (brings : Brings attempt.key own engine.client step)
    (apart : ∀ n phase session, n ≠ number → engine.attempts.get? n = some phase → phase.session? = some session →
      own ≠ some session) :
    (engine.afterAttempt number attempt step).Keyed fun key id => ready key id ∨ step.1.sessions.Ready key id := by
  obtain ⟨client, phase | outcome⟩ := step
  · have hstays := brings.quiet.stays.trans
      (stays_modify client number (f := fun attempt => { attempt with isCancelled := false }) fun _ => rfl)
    have hlater : (engine.afterAttempt number attempt (client, .waits phase)).Keyed ready := by
      refine h.stays hstays fun n waiting session hp hs => ?_
      rw [show (engine.afterAttempt number attempt (client, .waits phase)).attempts = engine.attempts.set number phase
        from rfl, Entries.get?_set] at hp
      split at hp
      · next hn =>
        subst hn
        cases hp
        exact Or.inr ⟨attempt, found, brings.yields session hs⟩
      · next hn => exact Or.inl ⟨hp, fun key => brings.spares session key (apart n waiting session (Ne.symm hn) hp hs)⟩
    exact hlater.weaken fun _ _ => Or.inl
  · let middle : Engine σ := { engine with client, attempts := engine.attempts.erase number }
    have hgone : middle.attempts.get? number = none := (Entries.get?_erase ..).trans (if_pos rfl)
    have hstays : Stays engine.client middle.client := brings.quiet.stays
    have hmiddle : middle.Keyed ready := by
      refine h.stays hstays fun n waiting session hp hs => ?_
      rw [show middle.attempts = engine.attempts.erase number from rfl, Entries.get?_erase] at hp
      split at hp
      · cases hp
      · next hn => exact Or.inl ⟨hp, fun key => brings.spares session key (apart n waiting session (Ne.symm hn) hp hs)⟩
    obtain ⟨attempt', found', gist⟩ := hstays.found found
    have hkey : attempt'.key = attempt.key := congrArg Prod.fst gist
    refine (hmiddle.weaken fun _ _ => Or.inl).ends hgone found' (fun id hid => Or.inr ?_) _
    subst hid
    exact hkey ▸ brings.yields

/-- An attempt is forgotten: it is not under way any more. -/
theorem Keyed.forget (h : engine.Keyed ready) (number : Nat) :
    Keyed ready { engine with client := Engine.forget engine.client number } := by
  unfold Engine.forget
  split
  · exact h
  · dsimp only
    split
    · refine ⟨h.attempting, h.ended, fun key other hs => h.under key other ?_⟩
      rw [Entries.get?_erase] at hs
      split at hs
      · cases hs
      · exact hs
    · exact h

/-! ## What a turn does to the attempts -/

/-- What is done to the attempts: they stay what they are, one is launched, one gets on with its own session, or one is
forgotten. -/
inductive Alters (engine : Engine σ) : Engine σ → Prop where
  | stays {later : Engine σ} (attempts : later.attempts = engine.attempts) (stays : Stays engine.client later.client)
      (sessions : engine.client.sessions.Wanes later.client.sessions) : Alters engine later
  | launches {later : Engine σ} {key : String × String} (attempts : later.attempts = engine.attempts)
      (launches : Launches key engine.client later.client) : Alters engine later
  | tries {number : Nat} {attempt : Attempt} {own : Option Nat} {step : Client σ × Progress AttemptPhase String}
      (found : engine.client.attempts[number]? = some attempt) (brings : Brings attempt.key own engine.client step)
      (owns : ∀ session, own = some session →
        ∃ phase, engine.attempts.get? number = some phase ∧ phase.session? = some session) :
      Alters engine (engine.afterAttempt number attempt step)
  | forgets (number : Nat) : Alters engine { engine with client := Engine.forget engine.client number }

theorem Keyed.alters (h : engine.Keyed ready) (alters : Alters engine later)
    (apart : ∀ m n phase phase' session, engine.attempts.get? m = some phase → engine.attempts.get? n = some phase' →
      phase.session? = some session → phase'.session? = some session → m = n) :
    later.Keyed fun key id => ready key id ∨ later.client.sessions.Ready key id := by
  cases alters with
  | stays attempts stays sessions =>
    have hlater : later.Keyed ready := h.stays stays fun number phase session hp hs =>
      Or.inl ⟨attempts ▸ hp, fun key serves => serves.wanes sessions⟩
    exact hlater.weaken fun _ _ => Or.inl
  | launches attempts launches => exact (h.launches attempts launches).weaken fun _ _ => Or.inl
  | tries found brings owns =>
    rw [sessions_afterAttempt]
    refine h.afterAttempt found brings fun n phase session hn hp hs hown => ?_
    obtain ⟨phase', hp', hs'⟩ := owns session hown
    exact hn (apart n _ phase phase' session hp hp' hs hs')
  | forgets number => exact (h.forget number).weaken fun _ _ => Or.inl

/-- Attempts stay for their keys, whatever is done to them. -/
theorem Alters.hasAttempt (alters : Alters engine later) {key : String × String}
    (has : engine.client.HasAttempt number key) : later.client.HasAttempt number key := by
  cases alters with
  | stays _ stays _ => exact has.stays stays
  | launches _ launches =>
    obtain ⟨attempt, found, hkey⟩ := has
    exact ⟨attempt, launches.attempt found, hkey⟩
  | @tries n attempt own step _ brings _ =>
    have hstep := has.stays brings.quiet.stays
    obtain ⟨client, phase | outcome⟩ := step
    · exact hstep.stays (stays_modify client n fun _ => rfl)
    · exact hasAttempt_ended hstep outcome _
  | forgets other =>
    have hattempts : (Engine.forget engine.client other).attempts = engine.client.attempts := by
      unfold Engine.forget
      split
      · rfl
      · dsimp only
        split <;> rfl
    obtain ⟨attempt, found, hkey⟩ := has
    exact ⟨attempt, hattempts ▸ found, hkey⟩

theorem alters_calm {client : Client σ} (calm : Calm engine.client client) : Alters engine { engine with client } :=
  .stays rfl calm.toQuiet.stays calm.sessions

theorem alters_task (turn : TaskTurn engine number later) : Alters engine later := by
  cases turn with
  | nothing => exact alters_calm (.refl _)
  | @step _ step turned _ =>
    obtain ⟨client, activity | outcome⟩ := step
    · rcases turned.change with hc | ⟨-, key, launches⟩
      · exact .stays rfl hc.toQuiet.stays hc.sessions
      · exact .launches rfl launches
    · have hc := turned.calm.trans (client.calm_note (.finished number outcome))
      exact .stays rfl hc.toQuiet.stays hc.sessions

theorem alters_beginAttempt (engine : Engine σ) (setup : Setup σ) (number : Nat) :
    Alters engine (engine.beginAttempt setup number) := by
  unfold Engine.beginAttempt
  split
  · exact alters_calm (.refl _)
  · next attempt found =>
    have hbrings : Brings attempt.key none engine.client
        (if attempt.isCancelled then (engine.client, .ends (.error .cancelled))
          else engine.client.attempt setup attempt.language attempt.root) := by
      split
      · exact brings_fails (.refl _) _
      · exact engine.client.brings_attempt setup _ _
    exact .tries found hbrings nofun

theorem Keyed.alters_resumeAttempt (h : engine.Keyed ready) (setup : Setup σ) (number : Nat) :
    Alters engine (engine.resumeAttempt setup number) := by
  unfold Engine.resumeAttempt
  split
  · next attempt phase found hp =>
    refine .tries found (brings_resumeAttempt setup attempt.isCancelled fun session hs => ?_)
      fun session hown => ⟨phase, hp, hown⟩
    obtain ⟨attempt', found', serves⟩ := h.attempting number phase session hp hs
    cases found.symm.trans found'
    exact serves
  · exact alters_calm (.refl _)

theorem Keyed.alters_perform (h : engine.Keyed ready) (setup : Setup σ) (turn : Turn) :
    Alters engine (engine.perform setup turn) := by
  cases turn with
  | begin task => exact alters_task (taskTurn_begin engine setup task)
  | launch number => exact alters_beginAttempt engine setup number
  | wake signal =>
    dsimp only [Engine.perform, wake]
    split
    · next task _ => exact alters_task (taskTurn_resume engine setup task)
    · split
      · exact h.alters_resumeAttempt setup _
      · exact alters_calm (.refl _)
  | release => exact alters_calm (calm_setPending _ _)
  | forget number => exact .forgets number
  | joined ticket => exact alters_calm (calm_push _ rfl)
  | gathered ticket => exact alters_calm (calm_countGathered _ ticket)
  | deliver delivery => exact alters_calm (calm_hear _ delivery)

theorem stays_cancelAttempts (attempts : List Nat) (engine : Engine σ) :
    Stays engine.client (attempts.foldl cancelAttempt engine).client ∧
      engine.client.sessions.Wanes (attempts.foldl cancelAttempt engine).client.sessions := by
  induction attempts generalizing engine with
  | nil => exact ⟨(Calm.refl _).toQuiet.stays, .refl _⟩
  | cons number attempts ih =>
    have hflagged := engine.client.stays_modify number (f := fun attempt =>
      { attempt with isCancelled := attempt.outcome.isNone }) fun _ => rfl
    have hone : Stays engine.client (engine.cancelAttempt number).client ∧
        engine.client.sessions.Wanes (engine.cancelAttempt number).client.sessions := by
      unfold cancelAttempt
      dsimp only
      split
      · exact ⟨hflagged, .refl _⟩
      · next phase _ =>
        have hinterrupted := calm_interrupt { engine.client with
          attempts := engine.client.attempts.modify number fun attempt =>
            { attempt with isCancelled := attempt.outcome.isNone } } phase.signal
        exact ⟨hflagged.trans hinterrupted.toQuiet.stays, hinterrupted.sessions⟩
    exact ⟨hone.1.trans (ih _).1, hone.2.trans (ih _).2⟩

theorem stays_cancel (engine : Engine σ) (number : Nat) :
    Stays engine.client (engine.cancel number).1.client ∧
      engine.client.sessions.Wanes (engine.cancel number).1.client.sessions := by
  have hcalm : ∀ client : Client σ, Calm engine.client client →
      Stays engine.client client ∧ engine.client.sessions.Wanes client.sessions :=
    fun client calm => ⟨calm.toQuiet.stays, calm.sessions⟩
  unfold Engine.cancel
  split
  · exact hcalm _ (.refl _)
  · next task _ =>
    dsimp only
    split
    · exact hcalm _ (.refl _)
    · exact hcalm _ (.refl _)
    · split
      · next attempts _ =>
        exact stays_cancelAttempts attempts
          { engine with tasks := engine.tasks.set number { task with isCancelled := true } }
      · exact hcalm _ (calm_interrupt engine.client _)

end Keyed

/-! ## In the course of events -/

section Course

variable {ready : String × String → String → Prop} {setup : Setup σ} {engine first : Engine (σ × List Exchange)}

/-- **What an event does to the attempts.** -/
theorem Keyed.alters_goes (h : engine.Keyed ready) (setup : Setup σ) (event : Event σ) :
    ∃ queue, Alters (engine.withQueue queue) (engine.goes setup event) := by
  have hsame : ∀ later, Alters engine later → ∃ queue, Alters (engine.withQueue queue) later :=
    fun later alters => ⟨engine.client.queue, alters⟩
  cases event with
  | turn =>
    change ∃ queue, Alters (engine.withQueue queue) (engine.next setup.recorded)
    rcases next_cases engine setup.recorded with heq | ⟨turn, queue, -, heq⟩
    · rw [heq]
      exact hsame _ (alters_calm (.refl _))
    · rw [heq]
      have hpopped : (engine.withQueue queue).Keyed ready := ⟨h.attempting, h.ended, h.under⟩
      exact ⟨queue, hpopped.alters_perform _ turn⟩
  | cancel number =>
    obtain ⟨stays, sessions⟩ := engine.stays_cancel number
    exact hsame _ (.stays (engine.cancel_rest number).2 stays sessions)
  | hear delivery => exact hsame _ (alters_calm (engine.client.calm_hear delivery))
  | expire timer => exact hsame _ (alters_calm ((calm_setPending _ _).trans (calm_logAll _ _)))
  | call _ | moveClock _ | layer _ _ _ | listen _ | bind _ | reorder _ => exact hsame _ (.stays rfl (stays_of_eq rfl rfl) (.refl _))

end Course

section Courses

variable (setup : Setup σ) (layer : σ) (settings : Settings)

/-- At some point in the course of events a session with an identifier was ready, and it was for a key. -/
def WasReadyFor (events : List (Event σ)) (key : String × String) (id : String) : Prop :=
  ∃ before after, events = before ++ after ∧
    (course setup (fresh layer settings) before).client.sessions.Ready key id

variable {setup layer settings}

theorem WasReadyFor.append {events : List (Event σ)} {key : String × String} {id : String}
    (h : WasReadyFor setup layer settings events key id) (more : List (Event σ)) :
    WasReadyFor setup layer settings (events ++ more) key id := by
  obtain ⟨before, after, rfl, ready⟩ := h
  exact ⟨before, after ++ more, List.append_assoc .., ready⟩

theorem wasReadyFor_now {events : List (Event σ)} {key : String × String} {id : String}
    (ready : (course setup (fresh layer settings) events).client.sessions.Ready key id) :
    WasReadyFor setup layer settings events key id := ⟨events, [], (List.append_nil _).symm, ready⟩

theorem keyed_course (events : List (Event σ)) :
    (course setup (fresh layer settings) events).Keyed (WasReadyFor setup layer settings events) := by
  induction events using List.reverseRecOn with
  | nil => exact keyed_new _ _ _
  | append_singleton events event ih =>
    obtain ⟨letters, lawful⟩ := lawful_course setup layer settings events
    rw [course_concat]
    obtain ⟨queue, alters⟩ := ih.alters_goes setup event
    have hpopped : ((course setup (fresh layer settings) events).withQueue queue).Keyed _ :=
      ⟨ih.attempting, ih.ended, ih.under⟩
    refine (hpopped.alters alters lawful.apart).weaken fun key id hr => ?_
    rcases hr with hr | hr
    · exact hr.append [event]
    · exact wasReadyFor_now (course_concat .. ▸ hr)

end Courses

/-! ## Calls to start a session -/

/-- A task pursues a call to start a session for a key: it is still to begin, it waits for an attempt for that key, or it
has ended, and a session that it gave back was ready. -/
inductive Starting (ready : String × String → String → Prop) (language root : String) (key : String × String)
    (client : Client σ) : TaskState → Prop where
  | ready : Starting ready language root key client (.ready (.start language root))
  | waiting {phase : JoinPhase} (attempts : client.HasAttempt phase.attempt key) :
      Starting ready language root key client (.waiting (.joining phase))
  | finished {outcome : Except Fault Answer} (gives : ∀ id, outcome = .ok (.session (some id)) → ready key id) :
      Starting ready language root key client (.finished outcome)

section Starting

variable {ready : String × String → String → Prop} {setup : Setup σ} {engine : Engine σ} {number : Nat}
  {language root : String} {key : String × String} {state : TaskState}

/-- Somebody else has a turn. -/
theorem Starting.lasts {client later : Client σ} (h : Starting ready language root key client state)
    (attempts : ∀ number, client.HasAttempt number key → later.HasAttempt number key)
    {ready' : String × String → String → Prop} (hr : ∀ id, ready key id → ready' key id) :
    Starting ready' language root key later state := by
  cases h with
  | ready => exact .ready
  | waiting has => exact .waiting (attempts _ has)
  | finished gives => exact .finished fun id hid => hr id (gives id hid)

/-- A call that has its turn waits for an attempt for its key, or gives back what was ready. -/
theorem starting_afterTask {client : Client σ} {progress : Progress JoinPhase String}
    (starts : StartsWith ready key client progress) {task : Task} (found : engine.tasks[number]? = some task) :
    let later := engine.afterTask number (withSession .joining (client, progress))
    ∃ state cancelled, later.tasks[number]? = some ⟨state, cancelled⟩ ∧
      Starting (fun key id => ready key id ∨ later.client.sessions.Ready key id) language root key later.client state := by
  intro later
  have hset : ∀ task : Task, (engine.tasks.set number task)[number]? = some task :=
    fun _ => List.getElem?_set_self (List.getElem?_eq_some_iff.1 found).1
  cases progress with
  | waits phase => exact ⟨_, false, hset _, .waiting starts⟩
  | ends outcome =>
    refine ⟨_, false, hset _, .finished fun id hid => ?_⟩
    cases outcome with
    | error fault => cases hid
    | ok session =>
      cases hid
      exact starts

theorem Starting.beginTask (h : Starting ready language root (language, normalizeRoot setup.surroundings root)
      engine.client state) (keyed : engine.Keyed ready) {cancelled : Bool}
    (found : engine.tasks[number]? = some ⟨state, cancelled⟩) :
    let later := engine.beginTask setup number
    ∃ state cancelled, later.tasks[number]? = some ⟨state, cancelled⟩ ∧
      Starting (fun key id => ready key id ∨ later.client.sessions.Ready key id) language root
        (language, normalizeRoot setup.surroundings root) later.client state := by
  dsimp only
  rw [Engine.beginTask, found]
  cases h with
  | ready =>
    cases cancelled with
    | true =>
      refine ⟨_, false, List.getElem?_set_self (List.getElem?_eq_some_iff.1 found).1, .finished fun id hid => ?_⟩
      cases hid
    | false => exact starting_afterTask (engine.client.startsWith_start setup keyed.ended (keyed.under _)) found
  | waiting attempts => exact ⟨_, cancelled, found, .waiting attempts⟩
  | finished gives => exact ⟨_, cancelled, found, .finished fun id hid => Or.inl (gives id hid)⟩

theorem Starting.resumeTask (h : Starting ready language root key engine.client state) (keyed : engine.Keyed ready)
    {cancelled : Bool} (found : engine.tasks[number]? = some ⟨state, cancelled⟩) :
    let later := engine.resumeTask setup number
    ∃ state cancelled, later.tasks[number]? = some ⟨state, cancelled⟩ ∧
      Starting (fun key id => ready key id ∨ later.client.sessions.Ready key id) language root key later.client
        state := by
  dsimp only
  rw [Engine.resumeTask, found]
  cases h with
  | ready => exact ⟨_, cancelled, found, .ready⟩
  | waiting attempts =>
    exact starting_afterTask (engine.client.startsWith_resumeJoin keyed.ended cancelled attempts) found
  | finished gives => exact ⟨_, cancelled, found, .finished fun id hid => Or.inl (gives id hid)⟩

end Starting

section Course

variable {ready : String × String → String → Prop} {setup : Setup σ} {layer : σ} {settings : Settings}
  {engine : Engine (σ × List Exchange)} {language root : String} {state : TaskState} {task : Nat}

/-- A call to start a session is pursued through every event. -/
theorem Starting.goes (h : Starting ready language root (language, normalizeRoot setup.surroundings root)
      engine.client state) (keyed : engine.Keyed ready) {cancelled : Bool}
    (found : engine.tasks[task]? = some ⟨state, cancelled⟩) (event : Event σ) :
    let later := engine.goes setup event
    ∃ state cancelled, later.tasks[task]? = some ⟨state, cancelled⟩ ∧
      Starting (fun key id => ready key id ∨ later.client.sessions.Ready key id) language root
        (language, normalizeRoot setup.surroundings root) later.client state := by
  intro later
  obtain ⟨queue, alters⟩ := keyed.alters_goes setup event
  have hlasts : Starting (fun key id => ready key id ∨ later.client.sessions.Ready key id) language root
      (language, normalizeRoot setup.surroundings root) later.client state :=
    h.lasts (fun number => alters.hasAttempt) fun _ => Or.inl
  have hpopped : ∀ rest, (engine.withQueue rest).Keyed ready :=
    fun rest => ⟨keyed.attempting, keyed.ended, keyed.under⟩
  have hroot : setup.recorded.surroundings = setup.surroundings := rfl
  have hstarting : ∀ rest, Starting ready language root (language, normalizeRoot setup.surroundings root)
      (engine.withQueue rest).client state := by
    intro rest
    refine h.lasts (fun _ has => ?_) fun _ => id
    exact has
  rcases task_goes setup event found with ⟨cancelled', hfound⟩ | ⟨rest, heq | heq⟩
  · exact ⟨state, cancelled', hfound, hlasts⟩
  · have hlater : later = (engine.withQueue rest).beginTask setup.recorded task := heq
    rw [hlater]
    rw [← hroot] at hstarting ⊢
    exact (hstarting rest).beginTask (hpopped rest) found
  · have hlater : later = (engine.withQueue rest).resumeTask setup.recorded task := heq
    rw [hlater]
    exact (hstarting rest).resumeTask (hpopped rest) found

/-- **In the course of events a call to start a session is pursued for its language and the normal form of its root.** -/
theorem CalledFor.starting {events : List (Event σ)}
    (h : CalledFor setup (fresh layer settings) events task (.start language root)) :
    ∃ state cancelled, (course setup (fresh layer settings) events).tasks[task]? = some ⟨state, cancelled⟩ ∧
      Starting (WasReadyFor setup layer settings events) language root
        (language, normalizeRoot setup.surroundings root) (course setup (fresh layer settings) events).client state := by
  refine h.throughout (fun events => Starting (WasReadyFor setup layer settings events) language root
    (language, normalizeRoot setup.surroundings root) (course setup (fresh layer settings) events).client)
    (fun _ => .ready) ?_
  intro events event state cancelled found hs
  obtain ⟨state', cancelled', found', hs'⟩ := hs.goes (keyed_course events) found event
  refine ⟨state', cancelled', found', ?_⟩
  rw [← course_concat] at hs'
  exact hs'.lasts (fun _ => id) fun id hr => hr.elim (fun hr => hr.append [event]) wasReadyFor_now

end Course

end Engine

end LanguageSessions
