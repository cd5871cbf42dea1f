import LanguageSessions.Proofs.Engine.Course

/-!
# What is shown about servers in the course of events

A session is added only by a step of an attempt, for the key of the attempt and where no session of the key is live
(`adds_after`). So in a run a session whose end has not begun is the last one of its key (`latest_course`). If all
sessions have identifiers of their own, every ready one is then shown as running, and all that is shown fits the stage
of its session (`statuses_fit_the_sessions`).

What is shown for a key need not be the ready session's: an end that took its time puts up the status of its own session
again (`old_status_comes_first`).
-/

namespace LanguageSessions

/-! ## Sessions that are added -/

namespace SessionRegistry

/-- The same sessions, for the same keys. -/
structure Retains (before after : SessionRegistry) : Prop where
  length : after.sessions.length = before.sessions.length
  session : ∀ number session, before.session? number = some session →
    ∃ later, after.session? number = some later ∧ later.key = session.key

/-- At most one session is added, for a key of which no session was live. -/
def Adds (key : String × String) (before after : SessionRegistry) : Prop :=
  Retains before after ∨ before.Idle key ∧ ∃ session : Session, session.key = key ∧ Retains (before.add session) after

section Adding

variable {first second third : SessionRegistry} {key : String × String}

theorem Retains.refl (registry : SessionRegistry) : Retains registry registry := ⟨rfl, fun _ session h => ⟨session, h, rfl⟩⟩

theorem Retains.trans (h : Retains first second) (h' : Retains second third) : Retains first third where
  length := h'.length.trans h.length
  session number session hs := by
    obtain ⟨later, hl, hk⟩ := h.session number session hs
    obtain ⟨last, hlast, hk'⟩ := h'.session number later hl
    exact ⟨last, hlast, hk'.trans hk⟩

theorem Wanes.retains (h : first.Wanes second) : Retains first second where
  length := h.length
  session number session hs := by
    obtain ⟨later, hl, hw⟩ := h.session number session hs
    exact ⟨later, hl, hw.key⟩

theorem retains_modify (registry : SessionRegistry) (number : Nat) {f : Session → Session}
    (hf : ∀ session, (f session).key = session.key) : Retains registry (registry.modify number f) where
  length := List.length_modify ..
  session other session hs := by
    rw [session?_modify, hs]
    split
    · exact ⟨f session, rfl, hf session⟩
    · exact ⟨session, rfl, rfl⟩

theorem Retains.adds (h : Retains first second) : ∃ key, Adds key first second := ⟨default, Or.inl h⟩

/-- What was done before, without a session that is added. -/
theorem Adds.after (h : Adds key second third) (hr : Retains first second) (hidle : first.Idle key) :
    Adds key first third := by
  rcases h with hretains | ⟨-, session, hk, hretains⟩
  · exact Or.inl (hr.trans hretains)
  · refine Or.inr ⟨hidle, session, hk, ?_, ?_⟩
    · have hlength := hretains.length
      simp only [add, List.length_append, hr.length] at hlength ⊢
      exact hlength
    · intro number found hfound
      rw [session?_add] at hfound
      split at hfound
      · next hn =>
        cases hfound
        exact hretains.session number session (by rw [session?_add, hr.length, if_pos hn])
      · obtain ⟨later, hl, hk'⟩ := hr.session number found hfound
        have hlt := (List.getElem?_eq_some_iff.1 hfound).1
        have hadd : (second.add session).session? number = some later := by
          rw [session?_add, hr.length, if_neg (by omega)]
          exact hl
        obtain ⟨last, hlast, hk''⟩ := hretains.session number later hadd
        exact ⟨last, hlast, hk''.trans hk'⟩

theorem Retains.before (h : Retains first second) {number : Nat} {later : Session}
    (hs : second.session? number = some later) :
    ∃ session, first.session? number = some session ∧ later.key = session.key := by
  have hlt : number < first.sessions.length := h.length ▸ (List.getElem?_eq_some_iff.1 hs).1
  have hold : first.session? number = some first.sessions[number] := List.getElem?_eq_getElem hlt
  obtain ⟨later', hl, hk⟩ := h.session number _ hold
  cases hl.symm.trans hs
  exact ⟨_, hold, hk⟩

/-- The last session of its key stays the last one where none is added. -/
theorem Retains.latest (h : Retains first second) {number : Nat} {session : Session}
    (hl : first.Latest number session) : second.Latest number session := by
  intro n later hn hk
  obtain ⟨old, hold, hkey⟩ := h.before hn
  exact hl n old hold (hkey.symm.trans hk)

/-- The last session of its key stays the last one where none is added but for another key. -/
theorem Adds.latest_of_ne (h : Adds key first second) {number : Nat} {session : Session} (hne : session.key ≠ key)
    (hl : first.Latest number session) : second.Latest number session := by
  rcases h with hretains | ⟨-, added, hadded, hretains⟩
  · exact hretains.latest hl
  · refine hretains.latest fun n old hold hk => ?_
    rw [session?_add] at hold
    split at hold
    · cases hold
      exact absurd (hk.symm.trans hadded) hne
    · exact hl n old hold hk

/-- Beside a live session none is added for its key. -/
theorem Adds.retains (h : Adds key first second) {number : Nat} {stage : SessionStage}
    (hl : first.Live key number stage) : Retains first second :=
  h.resolve_right fun hadds => hadds.1 number stage hl

theorem Adds.length_le (h : Adds key first second) : second.sessions.length ≤ first.sessions.length + 1 := by
  rcases h with hretains | ⟨-, session, -, hretains⟩
  · have := hretains.length
    omega
  · have hlength := hretains.length
    simp only [add, List.length_append, List.length_singleton] at hlength
    omega

/-- A session that was added is the only one, and none of its key was live. -/
theorem Adds.new (h : Adds key first second) {number : Nat} {session : Session}
    (hn : first.sessions.length ≤ number) (hs : second.session? number = some session) :
    number = first.sessions.length ∧ first.Idle session.key := by
  have hlt := (List.getElem?_eq_some_iff.1 hs).1
  rcases h with hretains | ⟨hidle, added, rfl, hretains⟩
  · rw [hretains.length] at hlt
    omega
  · have hlength := hretains.length
    simp only [add, List.length_append, List.length_singleton] at hlength
    have hnumber : number = first.sessions.length := by omega
    have hadded : (first.add added).session? number = some added := by
      rw [session?_add, if_pos hnumber]
    obtain ⟨later, hl, hk⟩ := hretains.session number added hadded
    cases hl.symm.trans hs
    rw [hk]
    exact ⟨hnumber, hidle⟩

/-- If the live sessions are the last ones of their keys, they still are where one is added. -/
theorem Adds.latest (h : Adds key first second) (ha : first.Advances second)
    (live : ∀ number session, first.session? number = some session → session.stage.isEnding = false →
      first.Live session.key number session.stage)
    (latest : ∀ number session, first.session? number = some session → session.stage.isEnding = false →
      first.Latest number session) {number : Nat} {session : Session} (hs : second.session? number = some session)
    (hlive : session.stage.isEnding = false) : second.Latest number session := by
  intro n other hn hkey
  by_cases hnew : first.sessions.length ≤ number
  · obtain ⟨rfl, -⟩ := h.new hnew hs
    by_cases hle : n ≤ first.sessions.length
    · exact hle
    · exact Nat.le_of_eq (h.new (by omega) hn).1
  · have hold : first.session? number = some first.sessions[number] := List.getElem?_eq_getElem (by omega)
    obtain ⟨later, hl, hadvances⟩ := ha number _ hold
    cases hl.symm.trans hs
    have hnotyet : first.sessions[number].stage.isEnding = false := by
      apply Bool.eq_false_iff.2
      intro hending
      rw [hadvances.isEnding hending] at hlive
      cases hlive
    have hsame : session.key = first.sessions[number].key := hadvances.key
    by_cases hlate : first.sessions.length ≤ n
    · -- The session would have been added beside a live one of its key.
      obtain ⟨-, hidle⟩ := h.new hlate hn
      rw [hkey, hsame] at hidle
      exact absurd (live number _ hold hnotyet) (hidle number _)
    · have hother : first.session? n = some first.sessions[n] := List.getElem?_eq_getElem (by omega)
      obtain ⟨later, hl, hadvances'⟩ := ha n _ hother
      cases hl.symm.trans hn
      apply latest number _ hold hnotyet n _ hother
      rw [← hsame, ← hkey]
      exact hadvances'.key.symm

end Adding

end SessionRegistry

open SessionRegistry

namespace Client

section Attempts

variable {σ : Type} {setup : Setup σ} {language root : String} {client : Client σ}

theorem sessions_afterDiscard (number : Nat) (session : Session) (fault : Fault) (discarded : Progress Nat Unit) :
    (client.afterDiscard number session fault discarded).1.sessions = client.sessions := by
  unfold afterDiscard
  split <;> rfl

theorem sessions_afterAbort (session : String) (stopped : Progress Nat Unit) :
    (client.afterAbort language session stopped).1.sessions = client.sessions := by
  unfold afterAbort
  split <;> rfl

theorem sessions_afterInspection (inspected : Progress Nat Availability) :
    (client.afterInspection setup language inspected).1.sessions = client.sessions := by
  unfold afterInspection
  dsimp only
  split
  · rfl
  · rfl
  · split <;> rfl

theorem retains_handshakeFailed (number : Nat) (session : Session) (fault : Fault) :
    Retains client.sessions (client.handshakeFailed setup number session fault).1.sessions := by
  unfold handshakeFailed
  split
  · exact .refl _
  · dsimp only
    rw [sessions_afterDiscard]
    exact ((client.calm_log _).trans (proceeds_discard _ setup number session _).calm).sessions.retains

theorem retains_afterHandshake (number : Nat) (shaken : Progress HandshakePhase Unit) :
    Retains client.sessions (client.afterHandshake setup number shaken).1.sessions := by
  unfold afterHandshake
  split
  · exact .refl _
  · split
    · exact .refl _
    · unfold handshakeSucceeded
      split
      · exact client.sessions.retains_modify number fun _ => rfl
      · exact .refl _
    · exact retains_handshakeFailed number _ _

theorem adds_afterServerStart (hidle : client.sessions.Idle (language, root)) (started : Progress Nat StartResult) :
    Adds (language, root) client.sessions (client.afterServerStart setup language root started).1.sessions := by
  unfold afterServerStart
  split
  · exact Or.inl (.refl _)
  · exact Or.inl (.refl _)
  · next result =>
    split
    · exact Or.inl (.refl _)
    · split
      · refine Or.inl ?_
        dsimp only
        rw [sessions_afterAbort]
        exact (client.proceeds_ask setup (.stop result.session)).calm.sessions.retains
      · let session := Session.begin result.session language root
        have hshaken := (proceeds_shakeHands setup (client.enrol session) client.sessions.sessions.length session).calm
        refine Or.inr ⟨hidle, session, rfl, ?_⟩
        rw [← client.sessions_enrol session]
        exact hshaken.sessions.retains.trans (retains_afterHandshake _ _)

theorem adds_afterCheck (hidle : client.sessions.Idle (language, root)) (checked : Progress Nat Bool) :
    Adds (language, root) client.sessions (client.afterCheck setup language root checked).1.sessions := by
  unfold afterCheck
  split
  · exact Or.inl (.refl _)
  · exact Or.inl (.refl _)
  · have hasked := (client.proceeds_ask setup (.start language root)).calm
    exact (adds_afterServerStart (hidle.of_wanes hasked.sessions) _).after hasked.sessions.retains hidle
  · refine Or.inl ?_
    dsimp only
    rw [sessions_afterInspection]
    exact (client.proceeds_ask setup (.inspect language)).calm.sessions.retains

/-- The first step of an attempt adds a session only for its own key. -/
theorem adds_attempt (hidle : client.sessions.Idle (language, root)) :
    Adds (language, root) client.sessions (client.attempt setup language root).1.sessions := by
  have hasked := (client.calm_log (.info ("Starting server for " ++ language ++ " in " ++ root))).trans
    (proceeds_ask _ setup (.check language)).calm
  exact (adds_afterCheck (hidle.of_wanes hasked.sessions) _).after hasked.sessions.retains hidle

/-- A later step of an attempt adds a session only for its own key. -/
theorem adds_resumeAttempt {phase : AttemptPhase} (hfits : phase.Fits (language, root) client.sessions)
    (cancelled : Bool) :
    Adds (language, root) client.sessions
      (client.resumeAttempt setup cancelled language root phase).1.sessions := by
  cases phase with
  | checking ticket =>
    have hgone := (client.proceeds_goOn setup cancelled (.check language)).calm
    exact (adds_afterCheck (Idle.of_wanes hfits hgone.sessions) _).after hgone.sessions.retains hfits
  | inspecting ticket =>
    refine Or.inl ?_
    dsimp only [resumeAttempt]
    rw [sessions_afterInspection]
    exact (client.proceeds_goOn setup cancelled (.inspect language)).calm.sessions.retains
  | starting ticket =>
    have hgone := (client.proceeds_goOn setup cancelled (.start language root)).calm
    exact (adds_afterServerStart (Idle.of_wanes hfits hgone.sessions) _).after hgone.sessions.retains hfits
  | aborting ticket session =>
    refine Or.inl ?_
    dsimp only [resumeAttempt]
    rw [sessions_afterAbort]
    exact (client.proceeds_goOn setup cancelled (.stop session)).calm.sessions.retains
  | shaking number handshake =>
    refine Or.inl ?_
    dsimp only [resumeAttempt]
    split
    · exact .refl _
    · next session _ =>
      have hshaken : Calm client (client.resumeHandshake setup cancelled number session handshake).1 :=
        (client.proceeds_resumeHandshake cancelled number session handshake).calm
      exact hshaken.sessions.retains.trans (retains_afterHandshake _ _)
  | discarding ticket number fault =>
    refine Or.inl ?_
    dsimp only [resumeAttempt]
    split
    · exact .refl _
    · next session _ =>
      rw [sessions_afterDiscard]
      exact (client.proceeds_resumeDiscard setup cancelled number session).calm.sessions.retains

end Attempts

end Client

namespace Engine

open Client

variable {σ : Type}

/-! ## Turns and events -/

section Events

variable {engine : Engine σ} {setup : Setup σ}

theorem sessions_afterAttempt (engine : Engine σ) (number : Nat) (attempt : Attempt)
    (step : Client σ × Progress AttemptPhase String) :
    (engine.afterAttempt number attempt step).client.sessions = step.1.sessions := by
  obtain ⟨client, phase | outcome⟩ := step <;> rfl

/-- A task adds no session: what it launches is an attempt. -/
theorem TaskTurn.retains {number : Nat} {later : Engine σ} (turn : TaskTurn engine number later) :
    Retains engine.client.sessions later.client.sessions := by
  cases turn with
  | nothing => exact .refl _
  | @step _ step advances _ =>
    have hsessions : (engine.afterTask number step).client.sessions = step.1.sessions := by
      obtain ⟨client, activity | outcome⟩ := step <;> rfl
    rw [hsessions]
    rcases advances.change with hcalm | ⟨-, key, hlaunches⟩
    · exact hcalm.sessions.retains
    · rw [hlaunches.sessions]
      exact .refl _

theorem adds_beginAttempt (h : engine.Sound) {number : Nat} (hr : ∃ key, engine.client.Running number key)
    (hp : engine.attempts.get? number = none) :
    ∃ key, Adds key engine.client.sessions (engine.beginAttempt setup number).client.sessions := by
  obtain ⟨key, hr⟩ := hr
  have hidle := h.unphased number key hr hp
  obtain ⟨attempt, ha, rfl, -⟩ := id hr
  refine ⟨attempt.key, ?_⟩
  unfold Engine.beginAttempt
  rw [ha]
  dsimp only
  rw [sessions_afterAttempt]
  split
  · exact Or.inl (.refl _)
  · exact adds_attempt hidle

theorem adds_resumeAttempt (h : engine.Sound) (number : Nat) :
    ∃ key, Adds key engine.client.sessions (engine.resumeAttempt setup number).client.sessions := by
  unfold Engine.resumeAttempt
  split
  · next attempt phase ha hp =>
    obtain ⟨key, hr⟩ := h.phased number phase hp
    have hfits := h.fits number phase key hp hr
    obtain ⟨attempt', ha', rfl, -⟩ := id hr
    cases ha.symm.trans ha'
    rw [sessions_afterAttempt]
    exact ⟨attempt.key, Client.adds_resumeAttempt hfits attempt.isCancelled⟩
  · exact (Retains.refl _).adds

theorem sessions_forget (client : Client σ) (number : Nat) : (forget client number).sessions = client.sessions := by
  unfold forget
  split
  · rfl
  · dsimp only
    split <;> rfl

/-- A turn adds no session, unless it is one of an attempt. -/
theorem retains_perform (engine : Engine σ) (setup : Setup σ) (turn : Turn) :
    Retains engine.client.sessions (engine.perform setup turn).client.sessions ∨
      (∃ number, turn = .launch number) ∨
      ∃ signal number phase, turn = .wake signal ∧ engine.tasks.findIdx? (Task.waitsFor signal) = none ∧
        engine.attempts.find? (fun entry => entry.2.signal == signal) = some (number, phase) := by
  cases turn with
  | begin task => exact Or.inl (taskTurn_begin engine setup task).retains
  | launch number => exact Or.inr (Or.inl ⟨number, rfl⟩)
  | wake signal =>
    dsimp only [Engine.perform, wake]
    split
    · exact Or.inl (taskTurn_resume engine setup _).retains
    · next hnone =>
      split
      · next number phase hf => exact Or.inr (Or.inr ⟨signal, number, phase, rfl, hnone, hf⟩)
      · exact Or.inl (.refl _)
  | release | joined _ => exact Or.inl (.refl _)
  | forget number =>
    have hsessions : (engine.perform setup (.forget number)).client.sessions = engine.client.sessions :=
      sessions_forget engine.client number
    exact Or.inl (hsessions ▸ .refl _)
  | gathered ticket => exact Or.inl (calm_countGathered engine.client ticket).sessions.retains
  | deliver delivery => exact Or.inl (calm_hear engine.client delivery).sessions.retains

/-- A turn adds at most one session, for a key of which none was live. -/
theorem adds_perform (h : engine.Sound) {turn : Turn} {queue : List Turn} (hq : engine.client.queue = turn :: queue) :
    ∃ key, Adds key engine.client.sessions ((engine.withQueue queue).perform setup turn).client.sessions := by
  have hpop := h.pop hq
  rcases (engine.withQueue queue).retains_perform setup turn with hretains | ⟨number, rfl⟩ |
    ⟨signal, number, phase, rfl, hnone, hf⟩
  · exact hretains.adds
  · obtain ⟨hp, hr⟩ := h.toBooked.launched number (hq ▸ List.mem_cons_self)
    exact adds_beginAttempt hpop hr hp
  · rw [perform_wake_of_attempt (engine.withQueue queue) setup hnone hf]
    exact adds_resumeAttempt hpop _

/-- **An event adds at most one session**, for a key of which none was live. -/
theorem adds_after (h : engine.Sound) {event : Event σ} (ha : engine.Allows event) :
    ∃ key, Adds key engine.client.sessions (engine.after setup event).client.sessions := by
  by_cases hne : event = .turn
  · subst hne
    rw [Engine.after]
    rcases next_cases engine setup with heq | ⟨turn, queue, hq, heq⟩
    · rw [heq]
      exact (Retains.refl _).adds
    · rw [heq]
      exact adds_perform h hq
  · exact (still_after setup ha hne).1.sessions.retains.adds

end Events

/-! ## Courses -/

section Courses

variable {setup : Setup σ} {layer : σ} {settings : Settings} {events : List (Event σ)}

/-- Every event is allowed where it comes. -/
def Permitted (setup : Setup σ) (first : Engine (σ × List Exchange)) (events : List (Event σ)) : Prop :=
  ∀ before event after, events = before ++ event :: after →
    (course setup first before).Allows (event.recorded (course setup first before).client.layer.2)

theorem Permitted.concat {first : Engine (σ × List Exchange)} {event : Event σ}
    (h : Permitted setup first (events ++ [event])) :
    Permitted setup first events ∧
      (course setup first events).Allows (event.recorded (course setup first events).client.layer.2) := by
  constructor
  · rintro before other after rfl
    exact h before other (after ++ [event]) (by simp)
  · exact h events event [] rfl

theorem stopsUncancelled_recorded (hlayer : setup.layer.StopsUncancelled) :
    setup.recorded.layer.StopsUncancelled := fun state => hlayer state.1

theorem sound_course (hlayer : setup.layer.StopsUncancelled) (hp : Permitted setup (fresh layer settings) events) :
    (course setup (fresh layer settings) events).Sound := by
  induction events using List.reverseRecOn with
  | nil => exact sound_new (layer, []) settings
  | append_singleton events event ih =>
    obtain ⟨hp, ha⟩ := hp.concat
    rw [course_concat]
    exact (ih hp).after (stopsUncancelled_recorded hlayer) ha

/-- **A session whose end has not begun is the last one of its key.** -/
theorem latest_course (hlayer : setup.layer.StopsUncancelled) (hp : Permitted setup (fresh layer settings) events)
    (distinct : (course setup (fresh layer settings) events).client.sessions.Distinct) :
    ∀ number session, (course setup (fresh layer settings) events).client.sessions.session? number = some session →
      session.stage.isEnding = false →
      (course setup (fresh layer settings) events).client.sessions.Latest number session := by
  induction events using List.reverseRecOn with
  | nil =>
    intro number session found
    cases found
  | append_singleton events event ih =>
    obtain ⟨hp, ha⟩ := hp.concat
    obtain ⟨letters, h⟩ := lawful_course setup layer settings events
    obtain ⟨⟨hadvances, -⟩, -⟩ := h.goes setup event
    obtain ⟨key, hadds⟩ : ∃ key, Adds key _ ((course setup (fresh layer settings) events).goes setup event).client.sessions :=
      adds_after (sound_course hlayer hp) ha
    rw [course_concat] at distinct ⊢
    have hdistinct := hadvances.distinct distinct
    have hshown := h.shown hdistinct
    refine fun number session => hadds.latest hadvances (fun n old hold hlive => ?_) (ih hp hdistinct)
    have hlisted := hshown.registered n old hold fun hs => by rw [hs] at hlive; cases hlive
    have hstage : old.stage.isLive = true := by
      have hbegun := h.coherent.begun n old hold
      cases hs : old.stage <;> simp_all [SessionStage.isEnding, SessionStage.isLive]
    exact ⟨hstage, old, ⟨Entries.mem_of_get? hlisted, hold⟩, rfl, rfl⟩

/-- **What is shown about servers fits the sessions**, in a run in which all sessions have identifiers of their own.
Each status is that of the session with its identifier, and fits the stage of it. A ready session is shown as running;
if no other status is there for its language and root, this is the one that is found for them. -/
theorem statuses_fit_the_sessions (hlayer : setup.layer.StopsUncancelled)
    (hp : Permitted setup (fresh layer settings) events)
    (distinct : (course setup (fresh layer settings) events).client.sessions.Distinct) :
    let client := (course setup (fresh layer settings) events).client
    (∀ id status, client.status.get? id = some status → status.session = id ∧
      ∃ number session, client.sessions.session? number = some session ∧ session.id = id ∧
        status.language = session.language ∧ status.root = session.root ∧ status.state.Fits session.stage) ∧
    ∀ number session, client.sessions.session? number = some session → session.stage = .ready →
      ∃ status, client.status.get? session.id = some status ∧ status.state = .running ∧
        ((∀ other ∈ client.status.servers.values, other.language = session.language → other.root = session.root →
          other = status) → client.status.find? session.language session.root = some status) := by
  intro client
  obtain ⟨letters, h⟩ := lawful_course setup layer settings events
  have hshown := h.shown distinct
  refine ⟨hshown.fits, fun number session found hready => ?_⟩
  have hlive : session.stage.isEnding = false := by
    rw [hready]
    rfl
  obtain ⟨status, hg⟩ := hshown.live number session found hlive (latest_course hlayer hp distinct number session found hlive)
  obtain ⟨-, owner, session', found', hid, hlanguage, hroot, hfits⟩ := hshown.fits session.id status hg
  have hsame : owner = number := distinct owner number session' session found' found hid
  subst hsame
  cases found.symm.trans found'
  have hrunning : status.state = .running := by
    rw [hready] at hfits
    cases hs : status.state <;> simp_all [RunState.Fits, SessionStage.isEnding]
  refine ⟨status, hg, hrunning, fun halone => ?_⟩
  have hm : status ∈ client.status.servers.values := List.mem_map_of_mem (f := Prod.snd) (Entries.mem_of_get? hg)
  have hmatch : (status.language == session.language && status.root == session.root) = true := by
    simp [hlanguage, hroot]
  cases hfound : client.status.find? session.language session.root with
  | none => exact absurd hmatch (List.find?_eq_none.1 hfound status hm)
  | some other =>
    have hother := List.find?_some hfound
    simp only [Bool.and_eq_true, beq_iff_eq] at hother
    rw [halone other (List.mem_of_find?_eq_some hfound) hother.1 hother.2]

end Courses

/-! ## An end that takes its time -/

/-- Every call of the process layer returns at once, and each server that is started gets the next name. -/
def naming : Setup (List String) where
  layer :=
    { call := fun names _ call => ⟨if call matches .start _ _ then names.tail else names, .returns (match call with
        | .check _ => true
        | .inspect _ => ⟨true, true, false, none, none⟩
        | .download _ => ""
        | .start _ _ => ⟨names.headD "", true, none⟩
        | .stop _ => ()
        | .send _ _ => ()), []⟩
      resume := fun names _ _ => ⟨names, .waits, []⟩ }
  surroundings := ⟨"/", "/home", []⟩
  servers := []

/-- A server sends a message, and it is carried out what comes of that. -/
def heard (session text : String) : List (Event (List String)) := .hear ⟨session, text⟩ :: List.replicate 4 .turn

/-- A server is started up to the request that opens the handshake, which it answers. -/
def launched (session answer : String) : List (Event (List String)) :=
  .call (.start "python" "/w") :: .turn :: .turn :: heard session answer

/-- A session is started and stopped. A second one is started before the server of the first one answered, and stopped
behind that. Then a third one is started. -/
def overlapping : List (Event (List String)) :=
  launched "a" "\x7b\"id\": 1, \"result\": \x7b\x7d\x7d" ++ [.call (.stop "a"), .turn] ++
    launched "b" "\x7b\"id\": 3, \"result\": \x7b\x7d\x7d" ++ heard "a" "\x7b\"id\": 2, \"result\": null\x7d" ++
    [.call (.stop "b"), .turn] ++ heard "b" "\x7b\"id\": 4, \"result\": null\x7d" ++
    launched "c" "\x7b\"id\": 5, \"result\": \x7b\x7d\x7d"

/-- The third session is ready and is shown as running, behind the status of the first one, which is found instead. -/
theorem old_status_comes_first :
    let client := (course naming (fresh ["a", "b", "c"] Settings.standard) overlapping).client
    client.sessions.sessions.map (fun session => (session.id, session.stage)) =
        [("a", .stopped), ("b", .stopped), ("c", .ready)] ∧
      client.status.servers.map (fun entry => (entry.1, entry.2.state)) = [("a", .stopped), ("c", .running)] ∧
      (client.status.find? "python" "/w").map (·.session) = some "a" := by
  refine ⟨?_, ?_, ?_⟩ <;> decide +kernel

end Engine

end LanguageSessions
