import LanguageSessions.Proofs.Client.Stoppings

/-!
# What an attempt may stop

An attempt has a process stopped when the handshake with its server fails, and when the client is being closed. The
first it does without beginning the end of its session. So one call is at stake for a session as long as its handshake
lasts, and when it is ready and somebody may stop it (`SessionRegistry.stake`). A step of an attempt calls for no more
than was at stake, and for a process that was just started (`Stakes`, `stakes_attempt`, `stakes_resumeAttempt`).
-/

namespace LanguageSessions

open SessionRegistry

namespace SessionRegistry

variable {registry later : SessionRegistry} {number : Nat} {id : String}

/-- No session has an identifier but the one with a number, if that has it. -/
def Lone (registry : SessionRegistry) (number : Nat) (id : String) : Prop :=
  ∀ n session, registry.session? n = some session → session.id = id → n = number

/-- How often the process of a session may be stopped that is ready, or whose handshake lasts and may fail. -/
def stake (registry : SessionRegistry) (number : Nat) (id : String) (shaken : Bool) : Nat :=
  match registry.stageAs? number id with
  | some .ready => 1
  | some .starting | some .initializing => shaken.toNat
  | _ => 0

theorem Sole.lone (h : registry.Sole number id) : registry.Lone number id :=
  fun n session found => (h n session found).1

theorem Lone.wanes (h : registry.Lone number id) (hw : registry.Wanes later) : later.Lone number id := by
  intro n session' found hid
  obtain ⟨session, hs, wanes⟩ := session?_of_wanes hw found
  exact h n session hs (wanes.id.symm.trans hid)

theorem stake_of_ending {stage : SessionStage} (hs : registry.stageAs? number id = some stage)
    (ending : stage.isEnding = true) (shaken : Bool) : registry.stake number id shaken = 0 := by
  unfold stake
  rw [hs]
  cases stage <;> first | rfl | cases ending

theorem stake_of_ready (hs : registry.stageAs? number id = some .ready) (shaken : Bool) :
    registry.stake number id shaken = 1 := by
  unfold stake
  rw [hs]

theorem stake_length (registry : SessionRegistry) (id : String) (shaken : Bool) :
    registry.stake registry.sessions.length id shaken = 0 := by
  unfold stake
  rw [stageAs?_length]

/-- While the handshake of a session lasts its process may be stopped once. -/
theorem stake_of_live {stage : SessionStage} (hs : registry.stageAs? number id = some stage)
    (live : stage.isEnding = false) : registry.stake number id true = 1 := by
  unfold stake
  rw [hs]
  cases stage <;> first | rfl | cases live

/-- When the handshake of a session is over and has failed nothing is at stake. -/
theorem stake_of_unready {stage : SessionStage} (hs : registry.stageAs? number id = some stage)
    (unready : stage ≠ .ready) : registry.stake number id false = 0 := by
  unfold stake
  rw [hs]
  cases stage <;> first | rfl | exact absurd rfl unready

theorem stake_le_of_same {shaken shaken' : Bool} (same : later.stageAs? number id = registry.stageAs? number id)
    (h : shaken' = true → shaken = true) : later.stake number id shaken' ≤ registry.stake number id shaken := by
  have hflag : shaken'.toNat ≤ shaken.toNat := by
    cases shaken' with
    | false => exact Nat.zero_le _
    | true => rw [h rfl]
  unfold stake
  rw [same]
  split <;> first | exact Nat.le_refl _ | exact hflag

/-- What is at stake later on was at stake before. -/
theorem stake_le (hw : registry.Wanes later) {shaken shaken' : Bool} (h : shaken' = true → shaken = true) :
    later.stake number id shaken' ≤ registry.stake number id shaken := by
  rcases hw.stageAs? number id with same | ⟨stage, hs, ending⟩
  · exact stake_le_of_same same h
  · rw [stake_of_ending hs ending]
    exact Nat.zero_le _

theorem stake_le_one (registry : SessionRegistry) (number : Nat) (id : String) (shaken : Bool) :
    registry.stake number id shaken ≤ 1 := by
  unfold stake
  split <;> first | exact Nat.le_refl _ | exact Bool.toNat_le shaken | exact Nat.zero_le _

end SessionRegistry

/-- The handshake of the session with a number lasts. -/
def AttemptPhase.shakes (number : Nat) : AttemptPhase → Bool
  | .shaking other _ => other == number
  | _ => false

theorem AttemptPhase.session?_of_shakes {phase : AttemptPhase} {number : Nat} (h : phase.shakes number = true) :
    phase.session? = some number := by
  cases phase with
  | shaking other handshake => exact congrArg some (eq_of_beq h)
  | _ => cases h

/-- An attempt that has got so far waits in the handshake of the session with a number. -/
def Progress.shakes (number : Nat) : Progress AttemptPhase String → Bool
  | .waits phase => phase.shakes number
  | .ends _ => false

namespace Client

variable {σ : Type}

/-- In a step of an attempt the process layer is called to stop processes, and reports servers that were started. A
session that was added is one of these. For no identifier the layer is called more often than was at stake and than
servers were started for it. -/
structure Stakes (starts : List String) (shaken : Nat → Bool) (before : Client (σ × List Exchange))
    (step : Client (σ × List Exchange) × Progress AttemptPhase String) : Prop where
  founded : ∀ n session, step.1.sessions.session? n = some session →
    n = before.sessions.sessions.length ∧ session.id ∈ starts ∨
      ∃ earlier, before.sessions.session? n = some earlier ∧ earlier.id = session.id
  started : startedBy step.1.layer.2 = startedBy before.layer.2 ++ starts
  paid : ∀ number id, before.sessions.Lone number id → (id ∈ starts → number = before.sessions.sessions.length) →
    step.1.stopped.count id + step.1.sessions.stake number id (step.2.shakes number) ≤
      before.stopped.count id + before.sessions.stake number id (shaken number) + starts.count id

section Staking

variable {starts : List String} {shaken : Nat → Bool} {before client : Client (σ × List Exchange)} {setup : Setup σ}
  {n : Nat} {session : Session}

/-- Only processes are stopped that were started in vain, and no handshake begins. -/
theorem stakes_of_paid {stops : List String} {progress : Progress AttemptPhase String}
    (calls : Calls stops starts before client) (paid : ∀ id, stops.count id ≤ starts.count id)
    (sessions : before.sessions.Wanes client.sessions)
    (shakes : ∀ number, progress.shakes number = true → shaken number = true) :
    Stakes starts shaken before (client, progress) where
  founded n session found := by
    obtain ⟨earlier, hearlier, wanes⟩ := session?_of_wanes sessions found
    exact Or.inr ⟨earlier, hearlier, wanes.id.symm⟩
  started := calls.started
  paid number id _ _ := by
    have hstake : client.sessions.stake number id (progress.shakes number) ≤
        before.sessions.stake number id (shaken number) := stake_le sessions (shakes number)
    have hpaid := paid id
    rw [calls.stopped, List.count_append]
    dsimp only
    omega

/-- No process is stopped, and no handshake begins. -/
theorem stakes_of_calls {progress : Progress AttemptPhase String} (calls : Calls [] starts before client)
    (sessions : before.sessions.Wanes client.sessions)
    (shakes : ∀ number, progress.shakes number = true → shaken number = true) :
    Stakes starts shaken before (client, progress) :=
  stakes_of_paid calls (fun _ => Nat.zero_le _) sessions shakes

/-- The attempt fails. -/
theorem stakes_fails (calls : Calls [] starts before client) (sessions : before.sessions.Wanes client.sessions)
    (fault : Fault) : Stakes starts shaken before (client, .ends (.error fault)) := stakes_of_calls calls sessions nofun

/-- Something else may have happened before, and servers may have been started. -/
theorem Stakes.after {step : Client (σ × List Exchange) × Progress AttemptPhase String}
    (h : Stakes [] shaken client step) (calls : Calls [] starts before client)
    (sessions : before.sessions.Wanes client.sessions) : Stakes starts shaken before step where
  founded n session found := by
    obtain ⟨-, hm⟩ | ⟨middle, hmiddle, hid⟩ := h.founded n session found
    · cases hm
    · obtain ⟨earlier, hearlier, wanes⟩ := session?_of_wanes sessions hmiddle
      exact Or.inr ⟨earlier, hearlier, wanes.id.symm.trans hid⟩
  started := by rw [h.started, List.append_nil, calls.started]
  paid number id lone _ := by
    have hpaid := h.paid number id (lone.wanes sessions) (fun hm => nomatch hm)
    have hstake : client.sessions.stake number id (shaken number) ≤
        before.sessions.stake number id (shaken number) := stake_le sessions fun hs => hs
    rw [calls.stopped, List.append_nil, List.count_nil] at hpaid
    omega

/-! ### The handshake -/

theorem calls_configure (client : Client (σ × List Exchange)) (setup : Setup σ) (session : Session) :
    Calls [] [] client (client.configure setup.recorded session).1 := by
  unfold configure
  split
  · exact (Accords.refl client).calls
  · split
    · exact (Accords.refl client).calls
    · exact client.calls_notifyIfPrintable setup _ _ _

theorem calls_afterTelling (client : Client (σ × List Exchange)) (setup : Setup σ) (session : Session)
    (told : Progress NoticePhase Unit) : Calls [] [] client (client.afterTelling setup.recorded session told).1 := by
  obtain notice | fault | ⟨⟩ := told
  · exact (Accords.refl client).calls
  · exact (Accords.refl client).calls
  · exact client.calls_configure setup session

theorem calls_changeSession (client : Client (σ × List Exchange)) (n : Nat) (f : Session → Session) :
    Calls [] [] client (client.changeSession n f) := calls_of_account rfl rfl rfl

theorem calls_afterAsking (client : Client (σ × List Exchange)) (setup : Setup σ) (n : Nat) (session : Session)
    (asked : Progress RequestPhase Json) :
    Calls [] [] client (client.afterAsking setup.recorded n session asked).1 := by
  have hgreeted : ∀ next : Client (σ × List Exchange), Calls [] [] next
      ((next.notify setup.recorded session.id "initialized" (.object [])).1.afterTelling setup.recorded session
        (next.notify setup.recorded session.id "initialized" (.object [])).2).1 :=
    fun next => (next.calls_notify setup _ _ _).trans (calls_afterTelling _ setup session _)
  obtain request | fault | result := asked
  · exact (Accords.refl client).calls
  · exact (Accords.refl client).calls
  · dsimp only [afterAsking]
    split
    · exact (client.calls_changeSession n _).trans (hgreeted _)
    · exact hgreeted client

theorem calls_shakeHands (client : Client (σ × List Exchange)) (setup : Setup σ) (n : Nat) (session : Session) :
    Calls [] [] client (client.shakeHands setup.recorded n session).1 :=
  (client.calls_requestIfPrintable _ _ _ _).trans (calls_afterAsking _ setup n session _)

theorem calls_resumeHandshake (client : Client (σ × List Exchange)) (setup : Setup σ) (cancelled : Bool) (n : Nat)
    (session : Session) (phase : HandshakePhase) :
    Calls [] [] client (client.resumeHandshake setup.recorded cancelled n session phase).1 := by
  cases phase with
  | asking request => exact (client.calls_resumeRequest cancelled request).trans (calls_afterAsking _ setup n session _)
  | telling notice =>
    exact (client.calls_resumeNotice setup cancelled notice).trans (calls_afterTelling _ setup session _)
  | configuring notice => exact client.calls_resumeNotice setup cancelled notice

theorem calls_setStatus (client : Client (σ × List Exchange)) (session : Session) (state : RunState)
    (error : Option String) : Calls [] [] client (client.setStatus session state error) := calls_of_account rfl rfl rfl

theorem calls_afterDiscard (client : Client (σ × List Exchange)) (n : Nat) (session : Session) (fault : Fault)
    (discarded : Progress Nat Unit) : Calls [] [] client (client.afterDiscard n session fault discarded).1 := by
  obtain ticket | other | ⟨⟩ := discarded
  · exact (Accords.refl client).calls
  · exact (Accords.refl client).calls
  · exact client.calls_setStatus _ _ _

theorem shakes_afterDiscard (client : Client (σ × List Exchange)) (session : Session) (fault : Fault)
    (discarded : Progress Nat Unit) (number : Nat) :
    (client.afterDiscard n session fault discarded).2.shakes number = false := by
  obtain ticket | other | ⟨⟩ := discarded <;> rfl

theorem wanes_afterDiscard (client : Client (σ × List Exchange)) (session : Session) (fault : Fault)
    (discarded : Progress Nat Unit) :
    client.sessions.Wanes (client.afterDiscard n session fault discarded).1.sessions := by
  obtain ticket | other | ⟨⟩ := discarded <;> exact .refl _

/-- The handshake fails: what was at stake for its session is called for now, unless somebody else stops it. -/
theorem stakes_handshakeFailed (found : client.sessions.session? n = some session) (unready : session.stage ≠ .ready)
    (shaking : shaken n = true) (fault : Fault) :
    Stakes [] shaken client (client.handshakeFailed setup.recorded n session fault) := by
  unfold handshakeFailed
  split
  · exact stakes_fails (client.accords_log _).calls (client.calm_log _).sessions fault
  · next live =>
    dsimp only
    let entry : LogEntry := .error ("Handshake with " ++ session.id ++ " failed: " ++ fault.message)
    let logged := client.log entry
    let discarded := logged.discard setup.recorded n session ("Handshake failed: " ++ fault.message)
    have hdiscarded := (logged.calls_discard setup n session ("Handshake failed: " ++ fault.message)).trans
      (calls_afterDiscard _ n session fault discarded.2)
    have hcalls : Calls [session.id] [] client (discarded.1.afterDiscard n session fault discarded.2).1 :=
      (client.accords_log entry).calls.trans hdiscarded
    have hsessions : client.sessions.Wanes (discarded.1.afterDiscard n session fault discarded.2).1.sessions :=
      (logged.proceeds_discard setup.recorded n session _).calm.sessions.trans
        (wanes_afterDiscard _ session fault discarded.2)
    refine ⟨fun m other hm => ?_, hcalls.started, fun number id lone _ => ?_⟩
    · obtain ⟨earlier, hearlier, wanes⟩ := session?_of_wanes hsessions hm
      exact Or.inr ⟨earlier, hearlier, wanes.id.symm⟩
    · rw [shakes_afterDiscard, hcalls.stopped, List.count_append, List.count_nil, Nat.add_zero, Nat.add_assoc]
      refine Nat.add_le_add_left ?_ _
      by_cases hid : session.id = id
      · cases lone n session found hid
        subst hid
        have hnone :
            (discarded.1.afterDiscard n session fault discarded.2).1.sessions.stake n session.id false = 0 := by
          rcases hsessions.stageAs? n session.id with same | ⟨stage, hs, ending⟩
          · exact stake_of_unready (same.trans (stageAs?_of_found found)) unready
          · exact stake_of_ending hs ending false
        rw [hnone, shaking, stake_of_live (stageAs?_of_found found) (Bool.eq_false_iff.2 live)]
        exact List.count_le_length
      · rw [List.count_singleton, if_neg (by simpa using hid), Nat.zero_add]
        exact stake_le hsessions nofun

/-- The handshake succeeds: what was at stake for its session is at stake still, for it is ready. -/
theorem stakes_handshakeSucceeded (found : client.sessions.session? n = some session) (shaking : shaken n = true) :
    Stakes [] shaken client (client.handshakeSucceeded n session) := by
  unfold handshakeSucceeded
  split
  · next begins =>
    let readied := client.setStage n .ready
    let entry : LogEntry := .info ("Server started and initialized: " ++ session.id)
    have hlogged : Calls [] [] client ((readied.setStatus session .running none).log entry) :=
      ((client.calls_changeSession n fun session => { session with stage := .ready }).trans
        (readied.calls_setStatus session .running none)).trans (accords_log _ entry).calls
    have hsession : ∀ m, readied.sessions.session? m = if n = m then
        (client.sessions.session? m).map fun session => { session with stage := .ready }
      else client.sessions.session? m := fun m => session?_modify ..
    refine ⟨fun m other hm => ?_, hlogged.started, fun number id lone _ => ?_⟩
    · have hm : readied.sessions.session? m = some other := hm
      rw [hsession] at hm
      split at hm
      · obtain ⟨earlier, hearlier, rfl⟩ := Option.map_eq_some_iff.1 hm
        exact Or.inr ⟨earlier, hearlier, rfl⟩
      · exact Or.inr ⟨other, hm, rfl⟩
    · dsimp only
      rw [hlogged.stopped, List.append_nil, List.count_nil, Nat.add_zero]
      refine Nat.add_le_add_left ?_ _
      change readied.sessions.stake number id false ≤ _
      have hlive : session.stage.isEnding = false := by rw [begins]; rfl
      by_cases hn : n = number
      · subst hn
        by_cases hid : session.id = id
        · subst hid
          rw [shaking, stake_of_live (stageAs?_of_found found) hlive]
          exact stake_le_one ..
        · have hnone : readied.sessions.stageAs? n id = none := by
            unfold SessionRegistry.stageAs?
            rw [hsession, if_pos rfl, found]
            exact if_neg hid
          unfold stake
          rw [hnone]
          exact Nat.zero_le _
      · have hsame : readied.sessions.stageAs? number id = client.sessions.stageAs? number id := by
          unfold SessionRegistry.stageAs?
          rw [hsession, if_neg hn]
        exact stake_le_of_same hsame nofun
  · exact stakes_fails (Accords.refl client).calls (.refl _) _

theorem stakes_afterHandshake {step : Client (σ × List Exchange) × Progress HandshakePhase Unit}
    (calls : Calls [] [] before step.1) (sessions : before.sessions.Wanes step.1.sessions)
    (unready : ∀ session, before.sessions.session? n = some session → session.stage ≠ .ready)
    (shaking : shaken n = true) :
    Stakes [] shaken before (step.1.afterHandshake setup.recorded n step.2) := by
  obtain ⟨client, handshake | outcome⟩ := step
  · refine stakes_of_calls calls sessions fun number hs => ?_
    rw [← eq_of_beq hs]
    exact shaking
  · dsimp only [afterHandshake]
    split
    · exact stakes_fails calls sessions _
    · next session found => exact (stakes_handshakeSucceeded found shaking).after calls sessions
    · next session fault found =>
      have hunready : session.stage ≠ .ready := by
        obtain ⟨earlier, hearlier, wanes⟩ := session?_of_wanes sessions found
        intro ready
        rcases wanes.stage with same | ending
        · exact unready earlier hearlier (same.symm.trans ready)
        · rw [ready] at ending
          cases ending
      exact (stakes_handshakeFailed found hunready shaking fault).after calls sessions

/-! ### From the beginning to the handshake -/

/-- The session of a server that was started is at stake as long as its handshake lasts. -/
theorem Stakes.enrolled {step : Client (σ × List Exchange) × Progress AttemptPhase String}
    (h : Stakes [] (· == client.sessions.sessions.length) (client.enrol session) step)
    (calls : Calls [] [session.id] before client) (sessions : before.sessions.Wanes client.sessions) :
    Stakes [session.id] (fun _ => false) before step where
  founded m other hm := by
    obtain ⟨-, hnone⟩ | ⟨middle, hmiddle, hid⟩ := h.founded m other hm
    · cases hnone
    · rw [session?_enrol] at hmiddle
      split at hmiddle
      · next hnew =>
        cases hmiddle
        exact Or.inl ⟨hnew.trans sessions.length, List.mem_singleton.2 hid.symm⟩
      · obtain ⟨earlier, hearlier, wanes⟩ := session?_of_wanes sessions hmiddle
        exact Or.inr ⟨earlier, hearlier, wanes.id.symm.trans hid⟩
  started := by
    have hboth := (calls.trans (client.calls_enrol session)).started
    rw [h.started, hboth, List.append_nil, List.append_nil]
  paid number id lone new := by
    have hboth := (calls.trans (client.calls_enrol session)).stopped
    have hlone : (client.enrol session).sessions.Lone number id := by
      intro m other hm hid
      rw [session?_enrol] at hm
      split at hm
      · next hnew =>
        cases hm
        rw [hnew, sessions.length, new (List.mem_singleton.2 hid.symm)]
      · exact lone.wanes sessions m other hm hid
    have hpaid := h.paid number id hlone fun hm => nomatch hm
    -- Only the session that was added may be at stake for more than before, and only for its identifier.
    have hstake : (client.enrol session).sessions.stake number id (number == client.sessions.sessions.length) ≤
        before.sessions.stake number id false + [session.id].count id := by
      by_cases hn : number = client.sessions.sessions.length
      · by_cases hid : session.id = id
        · rw [hid, List.count_singleton_self]
          exact Nat.le_trans (stake_le_one ..) (Nat.le_add_left _ _)
        · have hnone : (client.enrol session).sessions.stageAs? number id = none := by
            unfold SessionRegistry.stageAs?
            rw [session?_enrol, if_pos hn]
            exact if_neg hid
          unfold stake
          rw [hnone]
          exact Nat.zero_le _
      · have hsame : (client.enrol session).sessions.stageAs? number id = client.sessions.stageAs? number id := by
          unfold SessionRegistry.stageAs?
          rw [session?_enrol, if_neg hn]
        refine Nat.le_trans (Nat.le_trans (stake_le_of_same hsame fun heq => ?_) (stake_le sessions fun hs => hs))
          (Nat.le_add_right _ _)
        exact absurd (eq_of_beq heq) hn
    rw [hboth, List.append_nil, List.append_nil, List.count_nil] at hpaid
    omega

/-- A process that was started in vain is stopped again, or not: that is at most one call for one report. -/
theorem stakes_afterAbort {stops : List String} (calls : Calls stops starts before client)
    (paid : ∀ id, stops.count id ≤ starts.count id) (sessions : before.sessions.Wanes client.sessions)
    (language other : String) (stopped : Progress Nat Unit) :
    Stakes starts shaken before (client.afterAbort language other stopped) := by
  obtain ticket | fault | ⟨⟩ := stopped <;> exact stakes_of_paid calls paid sessions nofun

theorem stakes_afterServerStart (language root : String) {started : Progress Nat StartResult}
    (calls : Calls [] (reports started) before client) (sessions : before.sessions.Wanes client.sessions) :
    Stakes (reports started) (fun _ => false) before
      (client.afterServerStart setup.recorded language root started) := by
  obtain ticket | fault | result := started
  · exact stakes_of_calls calls sessions nofun
  · exact stakes_fails calls sessions _
  · unfold afterServerStart
    dsimp only
    cases hs : result.success with
    | false =>
      rw [if_pos (by decide)]
      exact stakes_fails calls sessions _
    | true =>
      have hreports : reports (.ends (.ok result)) = [result.session] := if_pos hs
      rw [hreports] at calls ⊢
      rw [if_neg (by decide)]
      split
      · have hplain : ∀ language root, LayerCall.stop result.session ≠ .start language root := fun _ _ => nofun
        refine stakes_afterAbort (calls.trans (client.calls_ask hplain)) (fun _ => Nat.le_refl _) ?_ language _ _
        exact sessions.trans (client.proceeds_ask setup.recorded _).calm.sessions
      · let session := Session.begin result.session language root
        have hshaken :=
          proceeds_shakeHands setup.recorded (client.enrol session) client.sessions.sessions.length session
        have unready : ∀ other, (client.enrol session).sessions.session? client.sessions.sessions.length = some other →
            other.stage ≠ .ready := by
          intro other found
          rw [session?_enrol, if_pos rfl] at found
          cases found
          nofun
        exact Stakes.enrolled (stakes_afterHandshake (calls_shakeHands _ setup _ session) hshaken.calm.sessions unready
          (beq_self_eq_true _)) calls sessions

theorem stakes_afterInspection (calls : Calls [] [] before client) (sessions : before.sessions.Wanes client.sessions)
    (language : String) (known : Progress Nat Availability) :
    Stakes [] (fun _ => false) before (client.afterInspection setup.recorded language known) := by
  obtain ticket | fault | availability := known
  · exact stakes_of_calls calls sessions nofun
  · exact stakes_fails calls sessions _
  · have hnoted : ∀ status, Calls [] [] client { client with status } := fun _ => calls_of_account rfl rfl rfl
    dsimp only [afterInspection]
    split
    · refine stakes_of_calls (calls.trans (hnoted _)) ?_ nofun
      exact sessions
    · exact stakes_fails calls sessions _

theorem stakes_afterCheck (calls : Calls [] [] before client) (sessions : before.sessions.Wanes client.sessions)
    (language root : String) (checked : Progress Nat Bool) :
    ∃ starts, Stakes starts (fun _ => false) before (client.afterCheck setup.recorded language root checked) := by
  obtain ticket | fault | available := checked
  · exact ⟨[], stakes_of_calls calls sessions nofun⟩
  · exact ⟨[], stakes_fails calls sessions _⟩
  · cases available with
    | true =>
      exact ⟨_, stakes_afterServerStart language root (calls.trans (client.calls_ask_start language root))
        (sessions.trans (client.proceeds_ask setup.recorded _).calm.sessions)⟩
    | false =>
      have hplain : ∀ other directory, LayerCall.inspect language ≠ .start other directory := fun _ _ => nofun
      exact ⟨[], stakes_afterInspection (calls.trans (client.calls_ask hplain))
        (sessions.trans (client.proceeds_ask setup.recorded _).calm.sessions) language _⟩

/-- **An attempt that begins** stops no process but one that was started in vain. -/
theorem stakes_attempt (client : Client (σ × List Exchange)) (setup : Setup σ) (language root : String) :
    ∃ starts, Stakes starts (fun _ => false) client (client.attempt setup.recorded language root) := by
  let logged := client.log (.info ("Starting server for " ++ language ++ " in " ++ root))
  have hplain : ∀ other directory, LayerCall.check language ≠ .start other directory := fun _ _ => nofun
  exact stakes_afterCheck ((client.accords_log _).calls.trans (logged.calls_ask hplain))
    ((client.calm_log _).sessions.trans (logged.proceeds_ask setup.recorded _).calm.sessions) language root _

/-- **An attempt that goes on** stops the process of its session where its handshake fails, or one that was started in
vain. -/
theorem stakes_resumeAttempt (client : Client (σ × List Exchange)) (setup : Setup σ) (cancelled : Bool)
    (language root : String) {phase : AttemptPhase}
    (unready : ∀ n session, phase.session? = some n → client.sessions.session? n = some session →
      session.stage ≠ .ready) :
    ∃ starts, Stakes starts (phase.shakes ·) client
      (client.resumeAttempt setup.recorded cancelled language root phase) := by
  have hplain : ∀ call : LayerCall, (∀ other directory, call ≠ .start other directory) →
      Calls [] [] client (client.goOn setup.recorded cancelled call).1 := fun call h => client.calls_goOn h cancelled
  have hsessions : ∀ call, client.sessions.Wanes (client.goOn setup.recorded cancelled call).1.sessions :=
    fun call => (client.proceeds_goOn setup.recorded cancelled call).calm.sessions
  cases phase with
  | checking ticket => exact stakes_afterCheck (hplain (.check language) fun _ _ => nofun) (hsessions _) language root _
  | inspecting ticket =>
    exact ⟨[], stakes_afterInspection (hplain (.inspect language) fun _ _ => nofun) (hsessions _) language _⟩
  | starting ticket =>
    exact ⟨_, stakes_afterServerStart language root (client.calls_goOn_start cancelled language root) (hsessions _)⟩
  | aborting ticket session =>
    exact ⟨[], stakes_afterAbort (hplain (.stop session) fun _ _ => nofun) (fun _ => Nat.zero_le _) (hsessions _)
      language session _⟩
  | shaking number handshake =>
    refine ⟨[], ?_⟩
    dsimp only [resumeAttempt]
    split
    · exact stakes_fails (Accords.refl client).calls (.refl _) _
    · next session _ =>
      have hsessions : client.sessions.Wanes
          (client.resumeHandshake setup.recorded cancelled number session handshake).1.sessions :=
        (client.proceeds_resumeHandshake cancelled number session handshake).calm.sessions
      exact stakes_afterHandshake (client.calls_resumeHandshake setup cancelled number session handshake)
        hsessions (fun other => unready number other rfl) (beq_self_eq_true number)
  | discarding ticket number fault =>
    refine ⟨[], ?_⟩
    dsimp only [resumeAttempt]
    split
    · exact stakes_fails (Accords.refl client).calls (.refl _) _
    · next session _ =>
      let discarded := client.resumeDiscard setup.recorded cancelled number session
      have hdiscarded := (client.calls_resumeDiscard setup cancelled number session).trans
        (calls_afterDiscard discarded.1 number session fault discarded.2)
      have hwanes := (client.proceeds_resumeDiscard setup.recorded cancelled number session).calm.sessions
      refine stakes_of_calls hdiscarded (hwanes.trans (wanes_afterDiscard _ session fault _)) fun m hs => ?_
      exact absurd ((shakes_afterDiscard discarded.1 session fault discarded.2 m).symm.trans hs) Bool.false_ne_true

end Staking

end Client

end LanguageSessions
