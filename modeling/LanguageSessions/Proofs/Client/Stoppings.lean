import LanguageSessions.Proofs.Client.Failures
import LanguageSessions.Proofs.Client.Operation

/-!
# How often a process is stopped

A stop has the process of its session stopped once. As long as it waits for the server to be asked and told, that call
is still owed; the end of the session has begun by then, so that nobody else comes to owe it. So the calls that were
made, the call that is owed, and the session itself, if its end is still to begin, never become more in a step of an
operation (`Pays`, `pays_beginOperation`, `pays_resumeActivity`).
-/

namespace LanguageSessions

open Account SessionRegistry

namespace SessionRegistry

variable {registry later : SessionRegistry} {number : Nat} {id : String}

/-- The session with a number has an identifier, if there is such a session, and no other one has it. -/
def Sole (registry : SessionRegistry) (number : Nat) (id : String) : Prop :=
  ∀ n session, registry.session? n = some session → (session.id = id ↔ n = number)

/-- The stage of the session with a number, if it has an identifier. -/
def stageAs? (registry : SessionRegistry) (number : Nat) (id : String) : Option SessionStage :=
  match registry.session? number with
  | some session => if session.id = id then some session.stage else none
  | none => none

/-- Whether the end of a session is still to begin: once or not at all. -/
def lives (registry : SessionRegistry) (number : Nat) (id : String) : Nat :=
  match registry.stageAs? number id with
  | some stage => if stage.isEnding then 0 else 1
  | none => 0

theorem stageAs?_of_found {session : Session} (found : registry.session? number = some session) :
    registry.stageAs? number session.id = some session.stage := by
  unfold stageAs?
  rw [found]
  exact if_pos rfl

theorem session?_none_of_wanes (hw : registry.Wanes later) (hn : registry.session? number = none) :
    later.session? number = none := by
  refine List.getElem?_eq_none_iff.2 ?_
  rw [hw.length]
  exact List.getElem?_eq_none_iff.1 hn

theorem session?_of_wanes (hw : registry.Wanes later) {session' : Session}
    (found : later.session? number = some session') :
    ∃ session, registry.session? number = some session ∧ session.Wanes session' := by
  cases hs : registry.session? number with
  | none => cases (session?_none_of_wanes hw hs).symm.trans found
  | some session =>
    obtain ⟨current, hcurrent, wanes⟩ := hw.session number session hs
    cases hcurrent.symm.trans found
    exact ⟨session, rfl, wanes⟩

theorem Wanes.distinct (hw : registry.Wanes later) (h : registry.Distinct) : later.Distinct := by
  intro m n first second hm hn hid
  obtain ⟨first', hm', wanes⟩ := session?_of_wanes hw hm
  obtain ⟨second', hn', wanes'⟩ := session?_of_wanes hw hn
  exact h m n first' second' hm' hn' (wanes.id.symm.trans (hid.trans wanes'.id))

/-- Where all sessions have identifiers of their own, the identifier of one is that of no other. -/
theorem Distinct.sole (h : registry.Distinct) {session : Session} (found : registry.session? number = some session) :
    registry.Sole number session.id := by
  intro n other hother
  refine ⟨fun hid => h n number other session hother found hid, ?_⟩
  rintro rfl
  cases found.symm.trans hother
  rfl

/-- An identifier that no session has is that of none which might be added. -/
theorem sole_of_absent (h : ∀ n session, registry.session? n = some session → session.id ≠ id) :
    registry.Sole registry.sessions.length id := by
  intro n session found
  exact iff_of_false (h n session found) (Nat.ne_of_lt (lt_length found))

theorem stageAs?_length (registry : SessionRegistry) (id : String) :
    registry.stageAs? registry.sessions.length id = none := by
  unfold stageAs?
  rw [show registry.session? registry.sessions.length = none from List.getElem?_eq_none_iff.2 (Nat.le_refl _)]

theorem Sole.wanes (h : registry.Sole number id) (hw : registry.Wanes later) : later.Sole number id := by
  intro n session' found
  obtain ⟨session, hs, wanes⟩ := session?_of_wanes hw found
  rw [wanes.id]
  exact h n session hs

/-- A session stays at its stage, or its end has begun. -/
theorem Wanes.stageAs? (hw : registry.Wanes later) (number : Nat) (id : String) :
    later.stageAs? number id = registry.stageAs? number id ∨
      ∃ stage, later.stageAs? number id = some stage ∧ stage.isEnding = true := by
  unfold SessionRegistry.stageAs?
  cases hs : registry.session? number with
  | none =>
    rw [session?_none_of_wanes hw hs]
    exact Or.inl rfl
  | some session =>
    obtain ⟨session', found, wanes⟩ := hw.session number session hs
    rw [found]
    dsimp only
    rw [wanes.id]
    split
    · exact wanes.stage.imp (congrArg some) fun ending => ⟨_, rfl, ending⟩
    · exact Or.inl rfl

theorem lives_of_ending {stage : SessionStage} (hs : registry.stageAs? number id = some stage)
    (ending : stage.isEnding = true) : registry.lives number id = 0 := by
  unfold lives
  rw [hs]
  exact if_pos ending

theorem lives_of_live {stage : SessionStage} (hs : registry.stageAs? number id = some stage)
    (live : stage.isEnding = false) : registry.lives number id = 1 := by
  unfold lives
  rw [hs]
  exact if_neg (by rw [live]; exact Bool.false_ne_true)

/-- What lives later on lived before. -/
theorem lives_le (hw : registry.Wanes later) : later.lives number id ≤ registry.lives number id := by
  rcases hw.stageAs? number id with same | ⟨stage, hs, ending⟩
  · unfold lives
    rw [same]
  · rw [lives_of_ending hs ending]
    exact Nat.zero_le _

end SessionRegistry

/-! ## Stops -/

/-- The stop of a session that somebody waits in who stops several. -/
def StopAllPhase.stop? (phase : StopAllPhase) : Option StopPhase := some phase.current

/-- Somebody who is in charge of no session and aborts nothing. -/
def Role.harmless (writes : Letter → Prop) : Role where
  greets _ := False
  opens _ _ := False
  ends _ := False
  aborts _ := False
  answers _ _ := True
  writes := writes

/-- One call that concerns the session with a number, for another number none. -/
def oneFor (other number : Nat) : Nat := if other = number then 1 else 0

/-- How often the stop of a session is still to have its process stopped. -/
def StopPhase.owes (number : Nat) : StopPhase → Nat
  | .asking other _ | .telling other _ => oneFor other number
  | .discarding _ _ => 0

theorem StopPhase.owes_of_ne {phase : StopPhase} {number : Nat} (h : phase.session ≠ number) :
    phase.owes number = 0 := by
  cases phase <;> first | rfl | exact if_neg h

/-- How often somebody who has got so far is still to have the process of a session stopped. -/
def owed {φ α : Type} (stop? : φ → Option StopPhase) (number : Nat) : Progress φ α → Nat
  | .waits waiting => ((stop? waiting).map (StopPhase.owes number)).getD 0
  | .ends _ => 0

namespace Client

variable {σ φ α : Type}

/-- Of the calls to stop the process of a session, and of those that are owed or still to come, there are no more after
a step than before it. -/
structure Pays (number : Nat) (id : String) (own debt : Nat) (before after : Client (σ × List Exchange)) : Prop where
  sessions : before.sessions.Wanes after.sessions
  paid : after.stopped.count id + after.sessions.lives number id + debt ≤
    before.stopped.count id + before.sessions.lives number id + own

section Paying

variable {number : Nat} {id : String} {own middle debt : Nat} {before client after : Client (σ × List Exchange)}
  {setup : Setup σ} {starts : List String}

theorem Pays.trans (h : Pays number id own middle before client) (h' : Pays number id middle debt client after) :
    Pays number id own debt before after :=
  ⟨h.sessions.trans h'.sessions, Nat.le_trans h'.paid h.paid⟩

theorem Pays.less (h : Pays number id own middle before after) (hle : debt ≤ middle) :
    Pays number id own debt before after :=
  ⟨h.sessions, Nat.le_trans (Nat.add_le_add_left hle _) h.paid⟩

/-- No process is stopped. -/
theorem pays_of_stopped (stopped : after.stopped = before.stopped) (sessions : before.sessions.Wanes after.sessions)
    (own : Nat) : Pays number id own own before after := by
  refine ⟨sessions, ?_⟩
  have hlives : after.sessions.lives number id ≤ before.sessions.lives number id := lives_le sessions
  rw [stopped]
  omega

theorem Calls.pays (calls : Calls [] starts before after) (sessions : before.sessions.Wanes after.sessions)
    (own : Nat) : Pays number id own own before after :=
  pays_of_stopped (calls.stopped.trans (List.append_nil _)) sessions own

theorem Pays.refl (client : Client (σ × List Exchange)) (own : Nat) : Pays number id own own client client :=
  pays_of_stopped rfl (.refl _) own

/-! ### Taking a session apart -/

theorem calls_afterStopCall (client : Client (σ × List Exchange)) (n : Nat) (session : Session)
    (stopped : Progress Nat Unit) : Calls [] [] client (client.afterStopCall n session stopped).1 := by
  have hdropped : ∀ next : Client (σ × List Exchange), Calls [] [] next
      ({ next with
        routes := next.routes.unregisterSession session.id
        sessions := next.sessions.remove session.id }.setStage n .stopped) :=
    fun _ => calls_of_account rfl rfl rfl
  unfold afterStopCall
  split
  · exact (Accords.refl client).calls
  · exact (Accords.refl client).calls
  · split
    · exact hdropped client
    · exact (client.accords_log _).calls.trans (hdropped _)

/-- To take a session apart is to have its process stopped once. -/
theorem calls_discard (client : Client (σ × List Exchange)) (setup : Setup σ) (n : Nat) (session : Session)
    (reason : String) : Calls [session.id] [] client (client.discard setup.recorded n session reason).1 := by
  have hplain : ∀ language root, LayerCall.stop session.id ≠ .start language root := fun _ _ => nofun
  unfold discard
  dsimp only
  exact ((client.calls_setPending _).trans (calls_ask _ hplain)).trans (calls_afterStopCall _ _ _ _)

theorem calls_resumeDiscard (client : Client (σ × List Exchange)) (setup : Setup σ) (cancelled : Bool) (n : Nat)
    (session : Session) : Calls [] [] client (client.resumeDiscard setup.recorded cancelled n session).1 := by
  have hplain : ∀ language root, LayerCall.stop session.id ≠ .start language root := fun _ _ => nofun
  unfold resumeDiscard
  dsimp only
  exact (client.calls_goOn hplain cancelled).trans (calls_afterStopCall _ _ _ _)

/-- The process of a session is stopped no more often for an identifier than for a number that goes with it. -/
theorem count_le_oneFor {n : Nat} {session : Session} (sole : session.id = id → n = number) :
    [session.id].count id ≤ oneFor n number := by
  by_cases hid : session.id = id
  · rw [oneFor, if_pos (sole hid)]
    exact List.count_le_length
  · rw [List.count_singleton, if_neg (by simpa using hid)]
    exact Nat.zero_le _

variable {n : Nat} {session : Session}

theorem pays_discard (client : Client (σ × List Exchange)) (sole : session.id = id → n = number) (reason : String) :
    Pays number id (oneFor n number) 0 client (client.discard setup.recorded n session reason).1 := by
  have hcalls := (client.calls_discard setup n session reason).stopped
  have hsessions := (client.proceeds_discard setup.recorded n session reason).calm.sessions
  have hlives : (client.discard setup.recorded n session reason).1.sessions.lives number id ≤
      client.sessions.lives number id := lives_le hsessions
  have hcount := count_le_oneFor sole
  refine ⟨hsessions, ?_⟩
  rw [hcalls, List.count_append]
  omega

/-! ### One session -/

theorem pays_log (client : Client (σ × List Exchange)) (entry : LogEntry) (own : Nat) :
    Pays number id own own client (client.log entry) :=
  (client.accords_log entry).calls.pays (client.calm_log entry).sessions own

theorem pays_afterStopDiscard (client : Client (σ × List Exchange)) (n : Nat) (session : Session)
    (discarded : Progress Nat Unit) :
    Pays number id 0 (owed some number (client.afterStopDiscard n session discarded).2) client
      (client.afterStopDiscard n session discarded).1 := by
  unfold afterStopDiscard
  split
  · exact .refl client 0
  · exact .refl client 0
  · have hshown : Calls [] [] client (client.setStatus session .stopped none) := calls_of_account rfl rfl rfl
    exact (hshown.pays (client.calm_setStatus _ _ _).sessions 0).trans (pays_log _ _ 0)

theorem pays_afterGoodbye (client : Client (σ × List Exchange)) (sole : session.id = id → n = number)
    (outcome : Except Fault Unit) :
    Pays number id (oneFor n number) (owed some number (client.afterGoodbye setup.recorded n session outcome).2) client
      (client.afterGoodbye setup.recorded n session outcome).1 := by
  unfold afterGoodbye
  split
  · exact (Pays.refl client _).less (Nat.zero_le _)
  · dsimp only
    split
    · exact (client.pays_discard sole _).trans (pays_afterStopDiscard _ _ _ _)
    · exact ((client.pays_log _ _).trans (pays_discard _ sole _)).trans (pays_afterStopDiscard _ _ _ _)

theorem pays_afterExit (client : Client (σ × List Exchange)) (sole : session.id = id → n = number)
    (told : Progress NoticePhase Unit) :
    Pays number id (oneFor n number) (owed some number (client.afterExit setup.recorded n session told).2) client
      (client.afterExit setup.recorded n session told).1 := by
  cases told with
  | waits notice => exact .refl client _
  | ends outcome => exact client.pays_afterGoodbye sole outcome

theorem pays_afterShutdown (client : Client (σ × List Exchange)) (sole : session.id = id → n = number)
    (asked : Progress RequestPhase Json) :
    Pays number id (oneFor n number) (owed some number (client.afterShutdown setup.recorded n session asked).2) client
      (client.afterShutdown setup.recorded n session asked).1 := by
  obtain request | fault | result := asked
  · exact .refl client _
  · exact client.pays_afterGoodbye sole _
  · dsimp only [afterShutdown]
    have hsessions := (client.proceeds_notify setup.recorded session.id "exit" .null).calm.sessions
    exact ((client.calls_notify setup session.id "exit" .null).pays hsessions _).trans (pays_afterExit _ sole _)

/-- Where the end of a session begins, its stop comes to owe a call. -/
theorem pays_shut (client : Client (σ × List Exchange)) (found : client.sessions.session? n = some session)
    (live : session.stage.isEnding = false) (sole : session.id = id ↔ n = number) :
    Pays number id 0 (oneFor n number) client (client.setStage n .shuttingDown) := by
  have hsessions : client.sessions.Wanes (client.setStage n .shuttingDown).sessions :=
    (client.calm_setStage n rfl).sessions
  have hcalls : Calls [] [] client (client.setStage n .shuttingDown) := calls_of_account rfl rfl rfl
  by_cases hn : n = number
  · subst hn
    cases sole.2 rfl
    obtain ⟨later, hlater, wanes⟩ := hsessions.session n session found
    have hending : later.stage.isEnding = true := by
      refine wanes.stage.resolve_left fun same => ?_
      have hshut : (client.setStage n .shuttingDown).sessions.session? n =
          some { session with stage := .shuttingDown } := by
        refine (session?_modify ..).trans ?_
        rw [if_pos rfl, found]
        rfl
      cases hshut.symm.trans hlater
      exact absurd live (same ▸ nofun)
    refine ⟨hsessions, ?_⟩
    rw [hcalls.stopped, List.append_nil, lives_of_live (stageAs?_of_found found) live,
      ← wanes.id, lives_of_ending (stageAs?_of_found hlater) hending, oneFor, if_pos rfl]
  · rw [oneFor, if_neg hn]
    exact hcalls.pays hsessions 0

/-- A stop that begins owes no call but the one that it begins the end of its session for. -/
theorem pays_stop (client : Client (σ × List Exchange)) (setup : Setup σ) (sole : client.sessions.Sole number id)
    (other : String) :
    Pays number id 0 (owed some number (client.stop setup.recorded other).2) client
      (client.stop setup.recorded other).1 := by
  unfold stop
  split
  · next n session hn hs =>
    have found : client.sessions.session? n = some session := by
      obtain ⟨m, hm, found⟩ := Option.bind_eq_some_iff.1 hs
      cases hn.symm.trans hm
      exact found
    split
    · exact .refl client 0
    · next live =>
      have hsole := sole n session found
      dsimp only
      have hshut := pays_shut (client.log (.info ("Stopping server: " ++ other))) found
        (Bool.eq_false_iff.2 live) hsole
      refine ((client.pays_log _ 0).trans hshut).trans ?_
      refine Pays.trans ?_ (pays_afterShutdown _ hsole.1 _)
      exact (calls_request _ _ _ _ _).pays (proceeds_request ..).calm.sessions _
  · exact .refl client 0

/-- A stop goes on: what it owes it has called for, or it owes it still. -/
theorem pays_resumeStop (client : Client (σ × List Exchange)) (setup : Setup σ) (sole : client.sessions.Sole number id)
    (cancelled : Bool) (phase : StopPhase) :
    Pays number id (phase.owes number) (owed some number (client.resumeStop setup.recorded cancelled phase).2) client
      (client.resumeStop setup.recorded cancelled phase).1 := by
  unfold resumeStop
  dsimp only
  split
  · exact (Pays.refl client _).less (Nat.zero_le _)
  · next session found =>
    cases phase with
    | asking n request =>
      have hsessions := (client.proceeds_resumeRequest setup.recorded cancelled request).calm.sessions
      exact ((client.calls_resumeRequest cancelled request).pays hsessions _).trans
        (pays_afterShutdown _ (sole n session found).1 _)
    | telling n notice =>
      have hsessions := (client.proceeds_resumeNotice setup.recorded cancelled notice).calm.sessions
      exact ((client.calls_resumeNotice setup cancelled notice).pays hsessions _).trans
        (pays_afterExit _ (sole n session found).1 _)
    | discarding n ticket =>
      have hsessions := (client.proceeds_resumeDiscard setup.recorded cancelled n session).calm.sessions
      exact ((client.calls_resumeDiscard setup cancelled n session).pays hsessions 0).trans
        (pays_afterStopDiscard _ _ _ _)

/-! ### Several sessions -/

theorem pays_stopEach (setup : Setup σ) (ids : List String) (client : Client (σ × List Exchange))
    (sole : client.sessions.Sole number id) :
    Pays number id 0 (owed StopAllPhase.stop? number (client.stopEach setup.recorded ids).2) client
      (client.stopEach setup.recorded ids).1 := by
  induction ids generalizing client with
  | nil => exact .refl client 0
  | cons other rest ih =>
    have h := client.pays_stop setup sole other
    rw [stopEach]
    generalize client.stop setup.recorded other = step at h
    obtain ⟨client, current | fault | ⟨⟩⟩ := step
    · exact h
    · exact h
    · exact h.trans (ih client (sole.wanes h.sessions))

theorem pays_resumeStopAll (client : Client (σ × List Exchange)) (setup : Setup σ)
    (sole : client.sessions.Sole number id) (cancelled : Bool) (phase : StopAllPhase) :
    Pays number id (phase.current.owes number)
      (owed StopAllPhase.stop? number (client.resumeStopAll setup.recorded cancelled phase).2) client
      (client.resumeStopAll setup.recorded cancelled phase).1 := by
  have h := client.pays_resumeStop setup sole cancelled phase.current
  rw [resumeStopAll]
  generalize client.resumeStop setup.recorded cancelled phase.current = step at h
  obtain ⟨client, current | fault | ⟨⟩⟩ := step
  · exact h
  · exact h
  · exact h.trans (pays_stopEach setup _ client (sole.wanes h.sessions))

/-! ### Closing -/

theorem calls_closeScope (client : Client (σ × List Exchange)) (scope : Scope) :
    Calls [] [] client (client.closeScope scope) := by
  have hsessions : Calls [] [] client client.closeSessions := by
    have hdeaf : Calls [] [] client { client with isListening := false } := calls_of_account rfl rfl rfl
    exact (hdeaf.trans (calls_setPending _ _)).trans (calls_of_account rfl rfl rfl)
  cases scope with
  | sessions => exact hsessions
  | everything => exact hsessions.trans (calls_of_account rfl rfl rfl)

theorem pays_afterStopAll (client : Client (σ × List Exchange)) (scope : Scope)
    (stopped : Progress StopAllPhase Unit) :
    Pays number id (owed StopAllPhase.stop? number stopped)
      (owed ClosePhase.stop? number (client.afterStopAll scope stopped).2) client
      (client.afterStopAll scope stopped).1 := by
  obtain phase | fault | ⟨⟩ := stopped
  · exact .refl client _
  · exact .refl client 0
  · dsimp only [afterStopAll]
    split
    · exact (client.calls_closeScope scope).pays (client.calm_closeScope scope).sessions 0
    · let ticketed : Client (σ × List Exchange) := { client with
        tickets := client.tickets + 1
        gathers := client.gathers.set client.tickets client.starting.values.length }
      have hticketed : Calls [] [] client ticketed := calls_of_account rfl rfl rfl
      have hgathered := (accords_gathers client.tickets client.starting.values ticketed).calls
      exact (hticketed.trans hgathered).pays
        (calm_gatherAll ticketed client.tickets client.starting.values).sessions 0

theorem pays_close (client : Client (σ × List Exchange)) (setup : Setup σ) (sole : client.sessions.Sole number id)
    (scope : Scope) :
    Pays number id 0 (owed ClosePhase.stop? number (client.close setup.recorded scope).2) client
      (client.close setup.recorded scope).1 := by
  let closing : Client (σ × List Exchange) :=
    { client.log (.info "Cleaning up LSP session manager") with isClosing := true }
  have hclosing : Calls [] [] client closing :=
    (client.accords_log _).calls.trans (calls_of_account rfl rfl rfl)
  exact ((hclosing.pays (.refl _) 0).trans (pays_stopEach setup _ closing sole)).trans (pays_afterStopAll _ scope _)

theorem pays_resumeClose (client : Client (σ × List Exchange)) (setup : Setup σ)
    (sole : client.sessions.Sole number id) (cancelled : Bool) (scope : Scope) (phase : ClosePhase) :
    Pays number id ((phase.stop?.map (StopPhase.owes number)).getD 0)
      (owed ClosePhase.stop? number (client.resumeClose setup.recorded cancelled scope phase).2) client
      (client.resumeClose setup.recorded cancelled scope phase).1 := by
  cases phase with
  | stopping phase =>
    exact (client.pays_resumeStopAll setup sole cancelled phase).trans (pays_afterStopAll _ scope _)
  | gathering ticket attempts =>
    dsimp only [resumeClose]
    split
    · exact .refl client 0
    · exact (client.calls_closeScope scope).pays (client.calm_closeScope scope).sessions 0

/-! ### Operations -/

theorem pays_harmless {letters : List Letter} {writes : Letter → Prop} {stop? : φ → Option StopPhase}
    {step : Client (σ × List Exchange) × Progress φ α} (sessions : client.sessions.Wanes step.1.sessions)
    (does : Does (.harmless writes) (client.account letters) (Parted stop? (.harmless writes)) step) :
    Pays number id 0 (owed stop? number step.2) client step.1 := by
  obtain ⟨letters', deeds, parted⟩ := does
  have hstopped : step.1.stopped = client.stopped :=
    deeds.stopped_eq (fun _ hm => hm.elim False.elim False.elim) fun _ => False.elim
  refine (pays_of_stopped hstopped sessions 0).less (Nat.le_of_eq ?_)
  obtain ⟨after, waiting | outcome⟩ := step
  · cases hs : stop? waiting with
    | none => rw [owed, hs]; rfl
    | some phase => exact (parted waiting phase rfl hs).2.elim
  · rfl

/-- The progress of a part is that of an operation, and so is what is owed. -/
theorem owed_silently {stop? : φ → Option StopPhase} {activity : φ → Activity}
    (hs : ∀ phase, (activity phase).stop? = stop? phase) (step : Client (σ × List Exchange) × Progress φ Unit) :
    owed Activity.stop? number (silently activity step).2 = owed stop? number step.2 := by
  obtain ⟨after, phase | outcome⟩ := step
  · exact congrArg (fun stop => (Option.map (StopPhase.owes number) stop).getD 0) (hs phase)
  · rfl

theorem wanes_of_advances {signal : φ → Signal} {old : Option Signal}
    {step : Client (σ × List Exchange) × Progress φ α} (h : Advances signal old client step) :
    client.sessions.Wanes step.1.sessions := by
  rcases h.change with calm | ⟨-, key, launches⟩
  · exact calm.sessions
  · rw [launches.sessions]
    exact .refl _

theorem pays_afterDeparture (client : Client (σ × List Exchange)) (scope : Scope) (started : Except Fault String)
    (closed : Progress ClosePhase Unit) :
    Pays number id (owed ClosePhase.stop? number closed)
      (owed Activity.stop? number (client.afterDeparture scope started closed).2) client
      (client.afterDeparture scope started closed).1 := by
  obtain phase | fault | ⟨⟩ := closed <;> exact .refl client _

theorem pays_afterArrival (client : Client (σ × List Exchange)) (setup : Setup σ)
    (sole : client.sessions.Sole number id) (scope : Scope) (started : Progress JoinPhase String) :
    Pays number id 0 (owed Activity.stop? number (client.afterArrival setup.recorded scope started).2) client
      (client.afterArrival setup.recorded scope started).1 := by
  cases started with
  | waits phase => exact .refl client 0
  | ends outcome => exact (client.pays_close setup sole scope).trans (pays_afterDeparture _ scope outcome _)

/-- **An operation that begins owes no call** but where it begins the end of a session. -/
theorem pays_beginOperation {letters : List Letter} (ho : (client.account letters).Coherent) (setup : Setup σ)
    (sole : client.sessions.Sole number id) (operation : Operation) :
    Pays number id 0 (owed Activity.stop? number (client.beginOperation setup.recorded operation).2) client
      (client.beginOperation setup.recorded operation).1 := by
  have hwanes := wanes_of_advances (client.advances_beginOperation setup.recorded operation)
  have hharmless : (∀ other, ¬ operation.Ends client.sessions other) →
      Pays number id 0 (owed Activity.stop? number (client.beginOperation setup.recorded operation).2) client
        (client.beginOperation setup.recorded operation).1 := by
    intro idle
    have hdoes : Does (.harmless operation.Writes) (client.account letters)
        (Parted Activity.stop? (.harmless operation.Writes)) (client.beginOperation setup.recorded operation) :=
      does_beginOperation setup ho (fun _ _ _ other _ ends => absurd ends (idle other)) fun _ hw => hw
    exact pays_harmless hwanes hdoes
  cases operation with
  | close scope => exact (owed_silently (fun _ => rfl) _) ▸ client.pays_close setup sole scope
  | visit scope language root =>
    let opened := client.openScope scope
    have hstarted := (client.accords_openScope scope).trans (opened.accords_start setup language root)
    have hsessions := wanes_of_advances (Advances.of_same (client.same_openScope scope)
      (opened.advances_start setup.recorded language root))
    exact (hstarted.calls.pays hsessions 0).trans (pays_afterArrival _ setup (sole.wanes hsessions) scope _)
  | stop other => exact (owed_silently (fun _ => rfl) _) ▸ client.pays_stop setup sole other
  | stopAll => exact (owed_silently (fun _ => rfl) _) ▸ pays_stopEach setup _ client sole
  | _ => exact hharmless fun _ ends => ends

/-- **An activity that goes on** has called for what it owed, or owes it still. -/
theorem pays_resumeActivity {letters : List Letter} (ho : (client.account letters).Coherent) (setup : Setup σ)
    (sole : client.sessions.Sole number id) (cancelled : Bool) (activity : Activity) :
    Pays number id ((activity.stop?.map (StopPhase.owes number)).getD 0)
      (owed Activity.stop? number (client.resumeActivity setup.recorded cancelled activity).2) client
      (client.resumeActivity setup.recorded cancelled activity).1 := by
  have hwanes := wanes_of_advances (client.advances_resumeActivity setup.recorded cancelled activity)
  have hharmless : (∀ other, ¬ activity.Ends other) → activity.stop? = none →
      Pays number id 0 (owed Activity.stop? number (client.resumeActivity setup.recorded cancelled activity).2) client
        (client.resumeActivity setup.recorded cancelled activity).1 := by
    intro idle unparted
    have hdoes : Does (.harmless fun _ => False) (client.account letters)
        (Parted Activity.stop? (.harmless fun _ => False))
        (client.resumeActivity setup.recorded cancelled activity) :=
      does_resumeActivity setup ho cancelled (fun _ _ _ other _ ends => absurd ends (idle other))
        fun _ hs => nomatch unparted.symm.trans hs
    exact pays_harmless hwanes hdoes
  cases activity with
  | stopping phase => exact (owed_silently (fun _ => rfl) _) ▸ client.pays_resumeStop setup sole cancelled phase
  | stoppingAll phase => exact (owed_silently (fun _ => rfl) _) ▸ client.pays_resumeStopAll setup sole cancelled phase
  | closing scope phase =>
    exact (owed_silently (fun _ => rfl) _) ▸ client.pays_resumeClose setup sole cancelled scope phase
  | arriving scope phase =>
    have hsessions := wanes_of_advances (client.advances_resumeJoin cancelled phase)
    exact ((client.accords_resumeJoin cancelled phase).calls.pays hsessions 0).trans
      (pays_afterArrival _ setup (sole.wanes hsessions) scope _)
  | departing scope started phase =>
    exact (client.pays_resumeClose setup sole cancelled scope phase).trans (pays_afterDeparture _ scope started _)
  | _ => exact hharmless (fun _ ends => ends) rfl

end Paying

end Client

end LanguageSessions
