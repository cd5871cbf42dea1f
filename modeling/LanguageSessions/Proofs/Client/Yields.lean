import LanguageSessions.Proofs.Client.Attempt
import LanguageSessions.Proofs.Client.Greetings
import LanguageSessions.Proofs.Client.Start

/-!
# What an attempt yields

The session that an attempt is at work on is for the attempt's own language and root and not ready yet, and an attempt
that ends with an identifier leaves a ready session of that identifier behind, for the same language and root (`Yields`).
Every step of every attempt keeps this, whatever the process layer does and whether or not the attempt was given up, and
spares the sessions that others are at work on (`brings_attempt`, `brings_resumeAttempt`). So a call to start a session
gives back one that is ready, or what an attempt for its language and root has ended with, or it waits for such an attempt
(`startsWith_start`, `startsWith_resumeJoin`).
-/

namespace LanguageSessions

/-- What is held against an attempt: what it starts a session for, and how it ended. -/
def Attempt.gist (attempt : Attempt) : (String × String) × Option (Except Fault String) := (attempt.key, attempt.outcome)

namespace SessionRegistry

/-- The session with a number is for a key, and it is not ready. -/
def Serves (registry : SessionRegistry) (number : Nat) (key : String × String) : Prop :=
  ∃ session, registry.session? number = some session ∧ session.key = key ∧ session.stage ≠ .ready

/-- A session with an identifier is ready, and it is for a key. -/
def Ready (registry : SessionRegistry) (key : String × String) (id : String) : Prop :=
  ∃ number session, registry.session? number = some session ∧ session.id = id ∧ session.key = key ∧
    session.stage = .ready

theorem Serves.wanes {registry later : SessionRegistry} {number : Nat} {key : String × String}
    (h : registry.Serves number key) (hw : registry.Wanes later) : later.Serves number key := by
  obtain ⟨session, found, rfl, unready⟩ := h
  obtain ⟨session', found', wanes⟩ := hw.session number session found
  refine ⟨session', found', wanes.key, fun hready => ?_⟩
  rcases wanes.stage with hstage | hending
  · exact unready (hstage.symm.trans hready)
  · rw [hready] at hending
    cases hending

/-- The session that was added last serves its own key. -/
theorem serves_add (registry : SessionRegistry) {session : Session} (unready : session.stage ≠ .ready) :
    (registry.add session).Serves registry.sessions.length session.key :=
  ⟨session, (session?_add ..).trans (if_pos rfl), rfl, unready⟩

theorem Serves.add {registry : SessionRegistry} {number : Nat} {key : String × String} (h : registry.Serves number key)
    (session : Session) : number ≠ registry.sessions.length ∧ (registry.add session).Serves number key := by
  obtain ⟨found, hfound, rest⟩ := h
  have hn : number ≠ registry.sessions.length := Nat.ne_of_lt (lt_length hfound)
  exact ⟨hn, found, (session?_add ..).trans ((if_neg hn).trans hfound), rest⟩

end SessionRegistry

/-- How far an attempt for a key has got with its session. -/
def Yields (key : String × String) (registry : SessionRegistry) : Progress AttemptPhase String → Prop
  | .waits phase => ∀ number, phase.session? = some number → registry.Serves number key
  | .ends (.ok id) => registry.Ready key id
  | .ends (.error _) => True

namespace Client

variable {σ : Type}

/-- A step of an attempt for a key, which is at work on its own session, lets the other attempts go on. -/
structure Brings (key : String × String) (own : Option Nat) (before : Client σ)
    (step : Client σ × Progress AttemptPhase String) : Prop where
  quiet : Quiet before step.1
  spares : ∀ number other, own ≠ some number → before.sessions.Serves number other → step.1.sessions.Serves number other
  yields : Yields key step.1.sessions step.2

section Attempts

variable {key : String × String} {own : Option Nat} {before client : Client σ} {setup : Setup σ}

theorem Brings.after {step : Client σ × Progress AttemptPhase String} (h : Brings key own client step)
    (hc : Calm before client) : Brings key own before step :=
  ⟨hc.toQuiet.trans h.quiet, fun number other hn serves => h.spares number other hn (serves.wanes hc.sessions), h.yields⟩

theorem brings_calm (h : Calm before client) {progress : Progress AttemptPhase String}
    (yields : Yields key client.sessions progress) : Brings key own before (client, progress) :=
  ⟨h.toQuiet, fun _ _ _ serves => serves.wanes h.sessions, yields⟩

theorem brings_fails (h : Calm before client) (fault : Fault) :
    Brings key own before (client, .ends (.error fault)) := brings_calm h trivial

/-- The attempt waits, and is at work on no session yet. -/
theorem brings_waits (h : Calm before client) {phase : AttemptPhase} (hp : phase.session? = none) :
    Brings key own before (client, .waits phase) :=
  brings_calm h fun _ hs => nomatch hp.symm.trans hs

/-! ## With a session -/

theorem brings_afterDiscard {number : Nat} (serves : before.sessions.Serves number key) (session : Session)
    (fault : Fault) {step : Client σ × Progress Nat Unit} (h : Proceeds Signal.ticket before step) :
    Brings key own before (step.1.afterDiscard number session fault step.2) := by
  obtain ⟨client, discarded⟩ := step
  dsimp only [afterDiscard]
  split
  · refine brings_calm h.calm fun n hn => ?_
    cases hn
    exact serves.wanes h.calm.sessions
  · exact brings_fails h.calm _
  · exact brings_fails (h.calm.trans (client.calm_setStatus _ _ _)) _

theorem brings_handshakeFailed {number : Nat} (serves : client.sessions.Serves number key) (session : Session)
    (fault : Fault) : Brings key own client (client.handshakeFailed setup number session fault) := by
  unfold handshakeFailed
  split
  · exact brings_fails (client.calm_log _) _
  · have hlogged : Calm client (client.log (.error ("Handshake with " ++ session.id ++ " failed: " ++ fault.message))) :=
      client.calm_log _
    exact (brings_afterDiscard (serves.wanes hlogged.sessions) session fault
      (proceeds_discard _ setup number session _)).after hlogged

theorem brings_handshakeSucceeded {number : Nat} {session : Session}
    (found : client.sessions.session? number = some session) :
    Brings session.key (some number) client (client.handshakeSucceeded number session) := by
  unfold handshakeSucceeded
  split
  · refine ⟨quiet_of_eq rfl rfl (.refl _) rfl, fun n other hn serves => ?_, ?_⟩
    · obtain ⟨session', found', rest⟩ := serves
      refine ⟨session', ((SessionRegistry.session?_modify ..).trans (if_neg fun heq => hn ?_)).trans found', rest⟩
      rw [heq]
    · refine ⟨number, { session with stage := .ready }, ?_, rfl, rfl, rfl⟩
      refine (SessionRegistry.session?_modify ..).trans ?_
      rw [if_pos rfl, found]
      rfl
  · exact brings_fails (.refl client) _

theorem brings_afterHandshake {number : Nat} (serves : before.sessions.Serves number key)
    {step : Client σ × Progress HandshakePhase Unit} (h : Proceeds HandshakePhase.signal before step) :
    Brings key (some number) before (step.1.afterHandshake setup number step.2) := by
  obtain ⟨client, shaken⟩ := step
  have hlater := serves.wanes h.calm.sessions
  cases shaken with
  | waits handshake =>
    refine brings_calm h.calm fun n hn => ?_
    cases hn
    exact hlater
  | ends outcome =>
    obtain ⟨session, found, rfl, -⟩ := id hlater
    dsimp only [afterHandshake]
    rw [found]
    cases outcome with
    | ok _ => exact (brings_handshakeSucceeded found).after h.calm
    | error fault => exact (brings_handshakeFailed hlater session fault).after h.calm

/-! ## From the beginning to the handshake -/

variable {language root : String}

/-- What is done with the session that was added is done with none that was there. -/
theorem Brings.enrolled {session : Session} {step : Client σ × Progress AttemptPhase String}
    (h : Brings key (some client.sessions.sessions.length) (client.enrol session) step) : Brings key none client step := by
  refine ⟨(client.quiet_enrol session).trans h.quiet, fun number other _ serves => ?_, h.yields⟩
  obtain ⟨hn, hadded⟩ := serves.add session
  exact h.spares number other (fun heq => hn (Option.some.inj heq).symm) (client.sessions_enrol session ▸ hadded)

theorem brings_afterAbort (session : String) {step : Client σ × Progress Nat Unit}
    (h : Proceeds Signal.ticket before step) : Brings key own before (step.1.afterAbort language session step.2) := by
  obtain ⟨client, stopped⟩ := step
  dsimp only [afterAbort]
  split
  · exact brings_waits h.calm rfl
  · exact brings_fails h.calm _
  · exact brings_fails h.calm _

theorem brings_afterServerStart {step : Client σ × Progress Nat StartResult} (h : Proceeds Signal.ticket before step) :
    Brings (language, root) none before (step.1.afterServerStart setup language root step.2) := by
  obtain ⟨client, started⟩ := step
  dsimp only [afterServerStart]
  split
  · exact brings_waits h.calm rfl
  · exact brings_fails h.calm _
  · next result =>
    split
    · exact brings_fails h.calm _
    · split
      · exact (brings_afterAbort _ (client.proceeds_ask setup _)).after h.calm
      · let session := Session.begin result.session language root
        have hshaken := proceeds_shakeHands setup (client.enrol session) client.sessions.sessions.length session
        have hserves : (client.enrol session).sessions.Serves client.sessions.sessions.length session.key := by
          rw [sessions_enrol]
          exact SessionRegistry.serves_add _ (by nofun)
        exact (brings_afterHandshake hserves hshaken).enrolled.after h.calm

theorem brings_afterInspection {step : Client σ × Progress Nat Availability} (h : Proceeds Signal.ticket before step) :
    Brings key own before (step.1.afterInspection setup language step.2) := by
  obtain ⟨client, inspected⟩ := step
  dsimp only [afterInspection]
  split
  · exact brings_waits h.calm rfl
  · exact brings_fails h.calm _
  · split
    · exact brings_fails (h.calm.trans (client.calm_status _)) _
    · exact brings_fails h.calm _

theorem brings_afterCheck {step : Client σ × Progress Nat Bool} (h : Proceeds Signal.ticket before step) :
    Brings (language, root) none before (step.1.afterCheck setup language root step.2) := by
  obtain ⟨client, checked⟩ := step
  dsimp only [afterCheck]
  split
  · exact brings_waits h.calm rfl
  · exact brings_fails h.calm _
  · exact (brings_afterServerStart (client.proceeds_ask setup _)).after h.calm
  · exact (brings_afterInspection (client.proceeds_ask setup _)).after h.calm

/-- **The first step of an attempt** is at work on a new session for its own key, if on any. -/
theorem brings_attempt (client : Client σ) (setup : Setup σ) (language root : String) :
    Brings (language, root) none client (client.attempt setup language root) := by
  unfold attempt
  dsimp only
  exact brings_afterCheck ((proceeds_ask _ setup _).after (client.calm_log _))

/-- **A further step of an attempt** is at work on the same session, or on a new one, or ends with it. -/
theorem brings_resumeAttempt (setup : Setup σ) (cancelled : Bool) {phase : AttemptPhase}
    (serves : ∀ number, phase.session? = some number → client.sessions.Serves number (language, root)) :
    Brings (language, root) phase.session? client (client.resumeAttempt setup cancelled language root phase) := by
  cases phase with
  | checking ticket => exact brings_afterCheck (client.proceeds_goOn setup cancelled _)
  | inspecting ticket => exact brings_afterInspection (client.proceeds_goOn setup cancelled _)
  | starting ticket => exact brings_afterServerStart (client.proceeds_goOn setup cancelled _)
  | aborting ticket session => exact brings_afterAbort session (client.proceeds_goOn setup cancelled _)
  | shaking number handshake =>
    dsimp only [resumeAttempt]
    split
    · exact brings_fails (.refl client) _
    · next session _ =>
      exact brings_afterHandshake (serves number rfl)
        (client.proceeds_resumeHandshake cancelled number session handshake)
  | discarding ticket number fault =>
    dsimp only [resumeAttempt]
    split
    · exact brings_fails (.refl client) _
    · next session _ =>
      exact brings_afterDiscard (serves number rfl) session fault
        (client.proceeds_resumeDiscard setup cancelled number session)

end Attempts

/-! ## Attempts that stay what they are -/

section Staying

variable {before client after : Client σ} {number : Nat}

/-- The attempts stay for what they are and as they ended, and the same ones are under way. -/
structure Stays (before after : Client σ) : Prop where
  starting : after.starting = before.starting
  gists : ∀ number : Nat, (after.attempts[number]?).map Attempt.gist = (before.attempts[number]?).map Attempt.gist

theorem stays_of_eq (starting : after.starting = before.starting) (attempts : after.attempts = before.attempts) :
    Stays before after := ⟨starting, fun _ => by rw [attempts]⟩

theorem Stays.trans (h : Stays before client) (h' : Stays client after) : Stays before after :=
  ⟨h'.starting.trans h.starting, fun number => (h'.gists number).trans (h.gists number)⟩

theorem Quiet.stays (h : Quiet before after) : Stays before after := by
  refine ⟨h.starting, fun number => ?_⟩
  cases hb : before.attempts[number]? with
  | none =>
    rw [List.getElem?_eq_none_iff, ← h.length, ← List.getElem?_eq_none_iff] at hb
    rw [hb]
  | some attempt =>
    obtain ⟨later, hl, joined⟩ := h.attempt number attempt hb
    rw [hl]
    exact congrArg some (Prod.ext joined.key joined.outcome)

/-- Whether an attempt was given up, and who joined it, is nothing that is held against it. -/
theorem stays_modify (client : Client σ) (number : Nat) {f : Attempt → Attempt}
    (same : ∀ attempt, (f attempt).gist = attempt.gist) :
    Stays client { client with attempts := client.attempts.modify number f } := by
  refine ⟨rfl, fun n => ?_⟩
  rw [List.getElem?_modify]
  cases client.attempts[n]? with
  | none => rfl
  | some attempt =>
    refine congrArg some ?_
    dsimp only
    split
    · exact same attempt
    · rfl

theorem Stays.found (h : Stays before after) {attempt : Attempt} (ha : before.attempts[number]? = some attempt) :
    ∃ later, after.attempts[number]? = some later ∧ later.gist = attempt.gist := by
  have hgist := h.gists number
  rw [ha] at hgist
  exact Option.map_eq_some_iff.1 hgist

theorem Stays.found_before (h : Stays before after) {later : Attempt} (ha : after.attempts[number]? = some later) :
    ∃ attempt, before.attempts[number]? = some attempt ∧ attempt.gist = later.gist := by
  have hgist := (h.gists number).symm
  rw [ha] at hgist
  exact Option.map_eq_some_iff.1 hgist

end Staying

/-! ## What a start comes to -/

/-- An attempt with a number is for a key. -/
def HasAttempt (client : Client σ) (number : Nat) (key : String × String) : Prop :=
  ∃ attempt, client.attempts[number]? = some attempt ∧ attempt.key = key

/-- How far a call to start a session for a key has got, where some identifiers are those of sessions that were ready. -/
def StartsWith (ready : String × String → String → Prop) (key : String × String) (client : Client σ) :
    Progress JoinPhase String → Prop
  | .waits phase => client.HasAttempt phase.attempt key
  | .ends (.ok id) => ready key id ∨ client.sessions.Ready key id
  | .ends (.error _) => True

section Starting

variable {before client after : Client σ} {setup : Setup σ} {number : Nat}
  {ready : String × String → String → Prop} {key : String × String}

theorem HasAttempt.stays (h : before.HasAttempt number key) (hs : Stays before after) : after.HasAttempt number key := by
  obtain ⟨attempt, found, rfl⟩ := h
  obtain ⟨later, hlater, hgist⟩ := hs.found found
  exact ⟨later, hlater, congrArg Prod.fst hgist⟩

/-- Attempts that ended well had their sessions ready. -/
def EndedReady (ready : String × String → String → Prop) (client : Client σ) : Prop :=
  ∀ (number : Nat) attempt id, client.attempts[number]? = some attempt → attempt.outcome = some (.ok id) →
    ready attempt.key id

theorem startsWith_join (ended : client.EndedReady ready) (tries : client.HasAttempt number key) :
    StartsWith ready key (client.join number).1 (client.join number).2 := by
  obtain ⟨attempt, found, rfl⟩ := tries
  cases ho : attempt.outcome with
  | none =>
    obtain ⟨hwaits, hlater⟩ := join_of_running found ho
    rw [hwaits]
    exact ⟨_, hlater, rfl⟩
  | some outcome =>
    rw [join_of_outcome found ho]
    cases outcome with
    | error fault => trivial
    | ok id => exact Or.inl (ended number attempt id found ho)

/-- A session that is found for a language and a root is ready for them, if it is ready. -/
theorem ready_of_find? {registry : SessionRegistry} {language root : String} {session : Session}
    (h : (registry.find? language root).filter Session.isReady = some session) :
    registry.Ready (language, root) session.id := by
  obtain ⟨hfound, hready⟩ := Option.filter_eq_some_iff.1 h
  obtain ⟨number, -, hsession⟩ := List.mem_filterMap.1 (List.mem_of_find?_eq_some hfound)
  have hlive := List.find?_some hfound
  simp only [Bool.and_eq_true, beq_iff_eq] at hlive
  exact ⟨number, session, hsession, rfl, Prod.ext hlive.1.1 hlive.1.2, beq_iff_eq.1 hready⟩

theorem startsWith_startAt (ended : client.EndedReady ready)
    (under : ∀ number, client.starting.get? key = some number → client.HasAttempt number key) :
    StartsWith ready key (client.startAt key.1 key.2).1 (client.startAt key.1 key.2).2 := by
  unfold startAt
  split
  · next session hf => exact Or.inr (ready_of_find? hf)
  · next hf =>
    split
    · next number hs =>
      let waiting := client.log (.info ("Waiting for server already starting for " ++ key.1 ++ " in " ++ key.2))
      have hended : waiting.EndedReady ready := ended
      exact startsWith_join hended (under number hs)
    · next hs =>
      obtain ⟨launches, waits⟩ := client.launches_join key hf hs
      obtain ⟨attempt, hattempts, hkey, -⟩ := launches.attempts
      dsimp only
      rw [show (client.launch key.1 key.2).2 = client.attempts.length from rfl, waits]
      exact ⟨attempt, by rw [hattempts]; exact List.getElem?_concat_length, hkey⟩

/-- **A call to start a session** gives back one that is ready, or waits for an attempt for its own language and root. -/
theorem startsWith_start (setup : Setup σ) (ended : client.EndedReady ready) {language root : String}
    (under : ∀ number, client.starting.get? (language, normalizeRoot setup.surroundings root) = some number →
      client.HasAttempt number (language, normalizeRoot setup.surroundings root)) :
    StartsWith ready (language, normalizeRoot setup.surroundings root) (client.start setup language root).1
      (client.start setup language root).2 := by
  have hsame := client.same_listen
  unfold start
  split
  · trivial
  · refine startsWith_startAt (fun number attempt id found => ?_) fun number hs => ?_
    · exact ended number attempt id (hsame.attempts ▸ found)
    · rw [hsame.starting] at hs
      exact (under number hs).stays (stays_of_eq hsame.starting hsame.attempts)

/-- **A call that joined an attempt** goes on waiting for it, or ends as it has ended. -/
theorem startsWith_resumeJoin (ended : client.EndedReady ready) (cancelled : Bool) {phase : JoinPhase}
    (attempts : client.HasAttempt phase.attempt key) :
    StartsWith ready key (client.resumeJoin cancelled phase).1 (client.resumeJoin cancelled phase).2 := by
  unfold resumeJoin
  split
  · trivial
  · obtain ⟨attempt, found, rfl⟩ := id attempts
    rw [found, Option.bind_some]
    cases ho : attempt.outcome with
    | none => exact attempts
    | some outcome =>
      cases outcome with
      | error fault => trivial
      | ok id => exact Or.inl (ended _ attempt id found ho)

end Starting

end Client

end LanguageSessions
