import LanguageSessions.Proofs.Client.Teardown
import LanguageSessions.Proofs.Client.Unasked

/-!
# Starts that fail

Until the process layer reports that a server was started, a step of an attempt leaves alone all that the client keeps
about its sessions (`Pends`). In the step in which it does, and in those that follow it, an attempt leaves alone what
belongs to other sessions (`Founds`, `Fares`), and it is known how it stands with its own one (`Stands`): as long as the
handshake lasts nobody has its process stopped; when the handshake has failed its process is to be stopped once; and
when the attempt ends with a fault the session is not registered any more and its server is shown as failed.
-/

namespace LanguageSessions

/-! ## Calls and reports -/

/-- The identifier of the session whose server was started, if a reply reports that. -/
def Exchange.started? : Exchange → Option String
  | ⟨.start _ _, .returns result⟩ => if result.success then some result.session else none
  | _ => none

/-- The identifiers of the sessions whose servers were started by a record, one for each report. -/
def startedBy (record : List Exchange) : List String := record.filterMap Exchange.started?

/-- The identifiers that come of a call to start a server, once it has got so far. -/
def reports : Progress Nat StartResult → List String
  | .ends (.ok result) => if result.success then [result.session] else []
  | _ => []

namespace Client

variable {σ : Type}

/-- The sessions whose processes were to be stopped, one for each call. -/
def stopped (client : Client σ) : List String :=
  (client.history.filterMap Effect.called?).filterMap LayerCall.stop?

/-- The process layer is called to stop processes, and reports servers that were started. -/
structure Calls (stops starts : List String) (before after : Client (σ × List Exchange)) : Prop where
  stopped : after.stopped = before.stopped ++ stops
  started : startedBy after.layer.2 = startedBy before.layer.2 ++ starts

section Calls

variable {stops stops' starts starts' : List String} {first second third before after : Client (σ × List Exchange)}
  (client : Client (σ × List Exchange)) {setup : Setup σ}

theorem Calls.trans (h : Calls stops starts first second) (h' : Calls stops' starts' second third) :
    Calls (stops ++ stops') (starts ++ starts') first third where
  stopped := by rw [h'.stopped, h.stopped, List.append_assoc]
  started := by rw [h'.started, h.started, List.append_assoc]

theorem calls_of_account {account : Account} (ha : after.account [] = account)
    (calls : account.calls = (before.account []).calls) (record : account.record = before.layer.2) :
    Calls [] [] before after where
  stopped := by
    change (after.account []).calls.filterMap LayerCall.stop? = _
    rw [ha, calls, List.append_nil]
    rfl
  started := by
    change startedBy (after.account []).record = _
    rw [ha, record, List.append_nil]

theorem Accords.calls (h : Accords before after) : Calls [] [] before after := calls_of_account (h []) rfl rfl

theorem calls_setPending (pending : Pending) : Calls [] [] client (client.setPending pending) :=
  calls_of_account (client.account_setPending [] pending) rfl rfl

/-- What a reply to a call reports. -/
theorem startedBy_afterCall {call : LayerCall} (step : LayerStep σ call.Answer) :
    startedBy (client.afterCall (step.recorded client.layer.2)).1.layer.2 =
      startedBy client.layer.2 ++ (Exchange.started? ⟨call, step.reply⟩).toList := by
  have hrecord := congrArg Account.record (client.account_afterCall [] step)
  change (client.afterCall (step.recorded client.layer.2)).1.layer.2 = _ at hrecord
  rw [hrecord, startedBy, List.filterMap_append]
  cases hs : Exchange.started? ⟨call, step.reply⟩ <;> simp [startedBy, hs]

theorem stopped_afterCall {call : LayerCall} (step : LayerStep σ call.Answer) :
    (client.afterCall (step.recorded client.layer.2)).1.stopped = client.stopped := by
  change ((client.afterCall (step.recorded client.layer.2)).1.account []).calls.filterMap LayerCall.stop? = _
  rw [account_afterCall]
  rfl

theorem stopped_note_called (call : LayerCall) :
    (client.note (.called call)).stopped = client.stopped ++ call.stop?.toList := by
  change ((client.note (.called call)).account []).calls.filterMap LayerCall.stop? = _
  rw [account_note_called, List.filterMap_append]
  cases hs : call.stop? <;> simp [stopped, account, hs]

/-- A reply reports no server that was started, unless it is one to a call to start one. -/
theorem started?_eq_none {call : LayerCall} (h : ∀ language root, call ≠ .start language root)
    (reply : Reply call.Answer) : Exchange.started? ⟨call, reply⟩ = none := by
  cases call with
  | start language root => exact absurd rfl (h language root)
  | check _ | inspect _ | download _ | stop _ | send _ _ => rfl

theorem calls_ask {call : LayerCall} (h : ∀ language root, call ≠ .start language root) :
    Calls call.stop?.toList [] client (client.ask setup.recorded call).1 where
  stopped := (stopped_afterCall _ _).trans (client.stopped_note_called call)
  started := by
    have hstarted := (client.note (.called call)).startedBy_afterCall
      (setup.layer.call client.layer.1 client.tickets call)
    rw [started?_eq_none h] at hstarted
    exact hstarted

theorem calls_goOn {call : LayerCall} (h : ∀ language root, call ≠ .start language root) (cancelled : Bool) :
    Calls [] [] client (client.goOn setup.recorded cancelled call).1 := by
  unfold goOn
  split
  · exact (Accords.refl client).calls
  · refine ⟨(stopped_afterCall _ _).trans (List.append_nil _).symm, ?_⟩
    have hstarted := client.startedBy_afterCall (setup.layer.resume client.layer.1 client.tickets call)
    rw [started?_eq_none h] at hstarted
    exact hstarted

/-- A message is handed over. -/
theorem calls_hand (message : Outgoing) : Calls [] [] client (client.ask setup.recorded message.call).1 := by
  have hplain : ∀ language root, message.call ≠ .start language root := fun _ _ => nofun
  exact client.calls_ask hplain

theorem calls_handOn (cancelled : Bool) (message : Outgoing) :
    Calls [] [] client (client.goOn setup.recorded cancelled message.call).1 := by
  have hplain : ∀ language root, message.call ≠ .start language root := fun _ _ => nofun
  exact client.calls_goOn hplain cancelled

/-- What comes of a call to start a server is what the reply reports. -/
theorem reports_afterCall (language root : String) (step : LayerStep σ (LayerCall.start language root).Answer) :
    reports (client.afterCall (step.recorded client.layer.2)).2 =
      (Exchange.started? ⟨.start language root, step.reply⟩).toList := by
  obtain ⟨layer, reply, deliveries⟩ := step
  cases reply with
  | waits => rfl
  | raises fault => rfl
  | returns result =>
    change (if result.success then [result.session] else []) =
      (if result.success then some result.session else none).toList
    split <;> rfl

theorem calls_ask_start (language root : String) :
    Calls [] (reports (client.ask setup.recorded (.start language root)).2) client
      (client.ask setup.recorded (.start language root)).1 where
  stopped := (stopped_afterCall _ _).trans (client.stopped_note_called _)
  started := by
    have hreports := (client.note (.called (.start language root))).reports_afterCall language root
      (setup.layer.call client.layer.1 client.tickets (.start language root))
    refine Eq.trans ?_ (congrArg (startedBy client.layer.2 ++ ·) hreports.symm)
    exact startedBy_afterCall _ _

theorem calls_goOn_start (cancelled : Bool) (language root : String) :
    Calls [] (reports (client.goOn setup.recorded cancelled (.start language root)).2) client
      (client.goOn setup.recorded cancelled (.start language root)).1 := by
  unfold goOn
  split
  · exact (Accords.refl client).calls
  · refine ⟨(stopped_afterCall _ _).trans (List.append_nil _).symm, ?_⟩
    have hreports := client.reports_afterCall language root
      (setup.layer.resume client.layer.1 client.tickets (.start language root))
    refine Eq.trans ?_ (congrArg (startedBy client.layer.2 ++ ·) hreports.symm)
    exact startedBy_afterCall _ _

end Calls

end Client

/-! ## Talking to a server -/

namespace SessionRegistry

/-- Nothing happens to the sessions, but that the one with a number remembers something. -/
structure Retouches (number : Nat) (before after : SessionRegistry) : Prop where
  numbers : after.numbers = before.numbers
  others : ∀ n, n ≠ number → after.session? n = before.session? n
  own : ∀ session, before.session? number = some session → ∃ later, after.session? number = some later ∧
    session.Advances later ∧ later.stage = session.stage ∧ later.versions = session.versions

variable {number : Nat} {first second third registry : SessionRegistry}

theorem Retouches.refl (number : Nat) (registry : SessionRegistry) : registry.Retouches number registry :=
  ⟨rfl, fun _ _ => rfl, fun session found => ⟨session, found, .refl session, rfl, rfl⟩⟩

theorem Retouches.trans (h : first.Retouches number second) (h' : second.Retouches number third) :
    first.Retouches number third where
  numbers := h'.numbers.trans h.numbers
  others n hn := (h'.others n hn).trans (h.others n hn)
  own session found := by
    obtain ⟨later, hlater, advances, hstage, hversions⟩ := h.own session found
    obtain ⟨last, hlast, advances', hstage', hversions'⟩ := h'.own later hlater
    exact ⟨last, hlast, advances.trans advances', hstage'.trans hstage, hversions'.trans hversions⟩

theorem retouches_modify {f : Session → Session}
    (same : ∀ session : Session, session.Advances (f session) ∧ (f session).stage = session.stage ∧
      (f session).versions = session.versions) : registry.Retouches number (registry.modify number f) where
  numbers := rfl
  others n hn := by rw [session?_modify, if_neg (Ne.symm hn)]
  own session found := by
    rw [session?_modify, if_pos rfl, found]
    exact ⟨_, rfl, same session⟩

end SessionRegistry

/-- A message of a handshake that is being handed over is one of its session. -/
def HandshakePhase.Held (id : String) (pending : Pending) : HandshakePhase → Prop
  | .asking request => request.Held id pending
  | .telling _ | .configuring _ => True

theorem HandshakePhase.Held.lasts {id : String} {before after : Pending} {quits : Nat → Prop} {phase : HandshakePhase}
    (h : phase.Held id before) (hl : before.Lasts quits after) (ha : before.Apart) : phase.Held id after := by
  cases phase with
  | asking request => exact RequestPhase.Held.lasts h hl ha
  | telling _ | configuring _ => trivial

namespace Client

variable {σ φ α : Type}

/-- Somebody talks to the server of a session: only its own requests move, and no process is started or stopped. -/
structure Talks (number : Nat) (id : String) (before after : Client (σ × List Exchange)) : Prop where
  sessions : before.sessions.Retouches number after.sessions
  rest : after.tables = { before.tables with sessions := after.sessions, pending := after.pending }
  pending : before.pending.Spares id after.pending
  apart : after.pending.Apart
  calls : Calls [] [] before after

/-- A step of a handshake. -/
structure Shakes (number : Nat) (id : String) (before : Client (σ × List Exchange))
    (step : Client (σ × List Exchange) × Progress HandshakePhase Unit) : Prop where
  talks : Talks number id before step.1
  held : ∀ phase, step.2 = .waits phase → phase.Held id step.1.pending

section Talking

variable {number : Nat} {id : String} {first second third before client : Client (σ × List Exchange)}
  {setup : Setup σ} {session : Session}

theorem Talks.trans (h : Talks number id first second) (h' : Talks number id second third) :
    Talks number id first third where
  sessions := h.sessions.trans h'.sessions
  rest := by rw [h'.rest, h.rest]
  pending := h.pending.trans h'.pending
  apart := h'.apart
  calls := h.calls.trans h'.calls

theorem talks_of_tables (ht : second.tables = first.tables) (ha : first.pending.Apart)
    (hc : Calls [] [] first second) : Talks number id first second := by
  have hsessions : second.sessions = first.sessions := congrArg Tables.sessions ht
  have hpending : second.pending = first.pending := congrArg Tables.pending ht
  refine ⟨hsessions ▸ .refl number _, ?_, hpending ▸ .refl id _, hpending ▸ ha, hc⟩
  rw [ht, hsessions, hpending]
  rfl

theorem Talks.refl (ha : client.pending.Apart) : Talks number id client client :=
  talks_of_tables rfl ha (Accords.refl client).calls

/-- The session with the number is there still. -/
theorem Talks.hosts (h : Talks number session.id first second) (hosts : first.tables.Hosts number session) :
    second.tables.Hosts number session where
  found := by
    obtain ⟨current, found, hid⟩ := hosts.found
    obtain ⟨later, hlater, advances, -⟩ := h.sessions.own current found
    exact ⟨later, hlater, advances.id.trans hid⟩
  seated other hother hid := by
    obtain ⟨current, found, hcurrent⟩ := hosts.found
    obtain ⟨later, hlater, -, -, hversions⟩ := h.sessions.own current found
    cases hlater.symm.trans hother
    change second.sessions.numbers.get? session.id = some number ∨ second.sessions.numbers.get? session.id = none ∧ _
    rw [h.sessions.numbers, hversions]
    exact hosts.seated current found hcurrent
  apart := h.apart

/-- Whoever talks to the server of a session leaves alone what belongs to others. -/
theorem Talks.spares (h : Talks number session.id first second) (hosts : first.tables.Hosts number session) :
    first.tables.Spares session.id second.tables := by
  obtain ⟨current, hcurrent, hid⟩ := hosts.found
  rw [h.rest]
  refine ⟨fun n other found hother => (h.sessions.others n ?_).trans found, congrArg _ h.sessions.numbers, rfl, rfl,
    fun _ _ => rfl, h.pending⟩
  rintro rfl
  cases hcurrent.symm.trans found
  exact hother hid

theorem talks_of_poses {step : Client (σ × List Exchange) × Progress RequestPhase Json} (h : Poses id before step)
    (hc : Calls [] [] before step.1) : Talks number id before step.1 := by
  have hsessions : step.1.sessions = before.sessions := congrArg Tables.sessions h.rest
  exact ⟨hsessions ▸ .refl number _, by rw [h.rest, hsessions]; rfl, h.spares, h.apart, hc⟩

theorem Shakes.after {step : Client (σ × List Exchange) × Progress HandshakePhase Unit}
    (h : Shakes number id client step) (ht : Talks number id before client) : Shakes number id before step :=
  ⟨ht.trans h.talks, h.held⟩

/-! ### Requests and notifications -/

theorem calls_awaitPromise (client : Client (σ × List Exchange)) (promise : Nat) :
    Calls [] [] client (client.awaitPromise promise).1 := by
  unfold awaitPromise
  split <;> exact (Accords.refl client).calls

theorem calls_afterSend (client : Client (σ × List Exchange)) (request : RequestId) (promise : Nat)
    (message : Outgoing) (sent : Progress Nat Unit) :
    Calls [] [] client (client.afterSend request promise message sent).1 := by
  unfold afterSend
  split
  · exact (Accords.refl client).calls
  · exact client.calls_awaitPromise promise
  · exact (Accords.refl client).calls
  · exact ((client.calls_setPending _).trans (accords_logAll _ _).calls).trans (calls_awaitPromise _ promise)

theorem calls_request (client : Client (σ × List Exchange)) (session method : String) (params : Json)
    (delay : Option Binary64) : Calls [] [] client (client.request setup.recorded session method params delay).1 := by
  have hpending : ∀ pending, Calls [] [] client { client with pending } := fun pending =>
    calls_of_account rfl rfl rfl
  unfold request
  split
  · exact (Accords.refl client).calls
  · dsimp only
    split
    · exact hpending _
    · exact ((hpending _).trans (calls_hand _ _)).trans (calls_afterSend _ _ _ _ _)

theorem calls_requestIfPrintable (client : Client (σ × List Exchange)) (session method : String) (params : Json)
    (delay : Option Binary64) :
    Calls [] [] client (client.requestIfPrintable setup.recorded session method params delay).1 := by
  unfold requestIfPrintable
  split
  · exact calls_of_account rfl rfl rfl
  · exact client.calls_request session method params delay

theorem calls_resumeRequest (client : Client (σ × List Exchange)) (cancelled : Bool) (phase : RequestPhase) :
    Calls [] [] client (client.resumeRequest setup.recorded cancelled phase).1 := by
  cases phase with
  | sending ticket request promise message =>
    exact (client.calls_handOn cancelled message).trans (calls_afterSend _ _ _ _ _)
  | waiting promise =>
    unfold resumeRequest
    dsimp only
    split
    · exact (Accords.refl client).calls
    · exact client.calls_awaitPromise promise

theorem calls_afterNotice (client : Client (σ × List Exchange)) (message : Outgoing) (sent : Progress Nat Unit) :
    Calls [] [] client (client.afterNotice message sent).1 := by
  rw [afterNotice_fst]
  exact (Accords.refl client).calls

theorem calls_notify (client : Client (σ × List Exchange)) (setup : Setup σ) (session method : String) (params : Json) :
    Calls [] [] client (client.notify setup.recorded session method params).1 :=
  (client.calls_hand _).trans (calls_afterNotice _ _ _)

theorem calls_notifyIfPrintable (client : Client (σ × List Exchange)) (setup : Setup σ) (session method : String)
    (params : Json) : Calls [] [] client (client.notifyIfPrintable setup.recorded session method params).1 := by
  unfold notifyIfPrintable
  split
  · exact client.calls_notify setup session method params
  · exact (Accords.refl client).calls

theorem calls_resumeNotice (client : Client (σ × List Exchange)) (setup : Setup σ) (cancelled : Bool)
    (phase : NoticePhase) : Calls [] [] client (client.resumeNotice setup.recorded cancelled phase).1 :=
  (client.calls_handOn cancelled phase.message).trans (calls_afterNotice _ _ _)

theorem talks_notify (setup : Setup σ) (ha : client.pending.Apart) (session method : String) (params : Json) :
    Talks number id client (client.notify setup.recorded session method params).1 :=
  talks_of_tables (client.tables_notify setup session method params) ha (client.calls_notify setup _ _ _)

theorem talks_notifyIfPrintable (setup : Setup σ) (ha : client.pending.Apart) (session method : String)
    (params : Json) : Talks number id client (client.notifyIfPrintable setup.recorded session method params).1 :=
  talks_of_tables (client.tables_notifyIfPrintable setup session method params) ha
    (client.calls_notifyIfPrintable setup _ _ _)

theorem talks_resumeNotice (setup : Setup σ) (ha : client.pending.Apart) (cancelled : Bool) (phase : NoticePhase) :
    Talks number id client (client.resumeNotice setup.recorded cancelled phase).1 :=
  talks_of_tables (client.tables_resumeNotice setup cancelled phase) ha (client.calls_resumeNotice setup _ _)

/-! ### The handshake -/

theorem shakes_configured (ha : client.pending.Apart) (told : Progress NoticePhase Unit) :
    Shakes number id client (client.afterConfiguring told) := by
  refine ⟨.refl ha, fun phase hw => ?_⟩
  cases told with
  | waits notice =>
    cases hw
    trivial
  | ends outcome => cases hw

theorem shakes_configure (ha : client.pending.Apart) (session : Session) :
    Shakes number id client (client.configure setup.recorded session) := by
  unfold configure
  split
  · exact ⟨.refl ha, nofun⟩
  · next server _ =>
    split
    · exact ⟨.refl ha, nofun⟩
    · have htold : Talks number id client _ := talks_notifyIfPrintable setup ha session.id
        "workspace/didChangeConfiguration" (.object [("settings", .object server.settings)])
      exact (shakes_configured htold.apart _).after htold

theorem shakes_afterTelling (ha : client.pending.Apart) (session : Session) (told : Progress NoticePhase Unit) :
    Shakes number id client (client.afterTelling setup.recorded session told) := by
  unfold afterTelling
  split
  · refine ⟨.refl ha, fun phase hw => ?_⟩
    cases hw
    trivial
  · exact ⟨.refl ha, nofun⟩
  · exact shakes_configure ha session

theorem shakes_tell (ha : client.pending.Apart) (session : Session) :
    Shakes number id client
      ((client.notify setup.recorded session.id "initialized" (.object [])).1.afterTelling setup.recorded session
        (client.notify setup.recorded session.id "initialized" (.object [])).2) := by
  have htold : Talks number id client _ := talks_notify setup ha session.id "initialized" (.object [])
  exact (shakes_afterTelling htold.apart session _).after htold

/-- The server was asked, and answered or not. -/
theorem shakes_afterAsking {step : Client (σ × List Exchange) × Progress RequestPhase Json}
    (h : Poses id before step) (hc : Calls [] [] before step.1) (session : Session) :
    Shakes number id before (step.1.afterAsking setup.recorded number session step.2) := by
  have htalks : Talks number id before step.1 := talks_of_poses h hc
  have hheld := h.held
  obtain ⟨client, asked⟩ := step
  refine Shakes.after ?_ htalks
  dsimp only [afterAsking]
  split
  · refine ⟨.refl htalks.apart, fun phase hw => ?_⟩
    cases hw
    exact hheld _ rfl
  · exact ⟨.refl htalks.apart, nofun⟩
  · split
    · next capabilities _ =>
      have hnoted : Talks number id client
          (client.changeSession number fun session => { session with capabilities }) :=
        ⟨SessionRegistry.retouches_modify fun session => ⟨⟨rfl, rfl, rfl, Nat.le_refl _⟩, rfl, rfl⟩, rfl, .refl _ _,
          htalks.apart, calls_of_account rfl rfl rfl⟩
      exact (shakes_tell hnoted.apart session).after hnoted
    · exact shakes_tell htalks.apart session

theorem shakes_shakeHands (ha : client.pending.Apart) (session : Session) :
    Shakes number session.id client (client.shakeHands setup.recorded number session) :=
  shakes_afterAsking (poses_requestIfPrintable ha _ _ _) (client.calls_requestIfPrintable _ _ _ _) session

theorem shakes_resumeHandshake (ha : client.pending.Apart) (session : Session) (cancelled : Bool)
    {phase : HandshakePhase} (held : phase.Held id client.pending) :
    Shakes number id client (client.resumeHandshake setup.recorded cancelled number session phase) := by
  cases phase with
  | asking request =>
    exact shakes_afterAsking (poses_resumeRequest ha cancelled held) (client.calls_resumeRequest cancelled request)
      session
  | telling notice =>
    have htold : Talks number id client _ := talks_resumeNotice setup ha cancelled notice
    exact (shakes_afterTelling htold.apart session _).after htold
  | configuring notice =>
    have htold : Talks number id client _ := talks_resumeNotice setup ha cancelled notice
    exact (shakes_configured htold.apart _).after htold

end Talking

/-! ## Attempts whose server was started -/

/-- How an attempt that has got so far stands with its session, whose process was to be stopped some times before. -/
inductive Stands (number : Nat) (session : Session) (times : Nat) (client : Client σ) : Progress AttemptPhase String → Prop where
  /-- The handshake lasts, and nobody has the process stopped. -/
  | shaking {current : Session} {handshake : HandshakePhase}
      (found : client.sessions.session? number = some current) (advances : session.Advances current)
      (begins : current.stage = .initializing) (uncalled : client.stopped.count session.id = times)
      (held : handshake.Held session.id client.pending) :
      Stands number session times client (.waits (.shaking number handshake))
  /-- The handshake failed, and the process is being stopped. -/
  | discarding {current : Session} {ticket : Nat} {fault : Fault}
      (found : client.sessions.session? number = some current) (advances : session.Advances current)
      (begins : current.stage = .initializing) (called : client.stopped.count session.id = times + 1)
      (free : client.pending.FreeOf session.id) :
      Stands number session times client (.waits (.discarding ticket number fault))
  /-- The handshake failed, and nothing is left of the session but what is shown of its server. -/
  | failed {current : Session} {fault : Fault} (found : client.sessions.session? number = some current)
      (advances : session.Advances current) (ended : current.stage = .stopped)
      (absent : client.sessions.number? session.id = none) (called : client.stopped.count session.id = times + 1)
      (free : client.pending.FreeOf session.id)
      (shown : client.sessions.Latest number session →
        client.status.get? session.id = some ⟨session.id, session.language, session.root, .error, some fault.message⟩) :
      Stands number session times client (.ends (.error fault))
  | ready {current : Session} (found : client.sessions.session? number = some current)
      (advances : session.Advances current) : Stands number session times client (.ends (.ok session.id))

/-- A step of an attempt behind the report that its server was started. -/
structure Fares (number : Nat) (session : Session) (times : Nat) (before : Client (σ × List Exchange))
    (step : Client (σ × List Exchange) × Progress AttemptPhase String) : Prop where
  spares : before.tables.Spares session.id step.1.tables
  calls : ∃ stops, (∀ other ∈ stops, other = session.id) ∧ Calls stops [] before step.1
  stands : Stands number session times step.1 step.2

section Faring

variable {number times : Nat} {session earlier : Session} {before client : Client (σ × List Exchange)} {setup : Setup σ}
  {step : Client (σ × List Exchange) × Progress AttemptPhase String}

/-- A session that has advanced is the same one. -/
theorem Stands.of_advances {client : Client σ} {progress : Progress AttemptPhase String}
    (h : Stands number session times client progress) (ha : earlier.Advances session) :
    Stands number earlier times client progress := by
  cases h with
  | shaking found advances begins uncalled held =>
    rw [ha.id] at uncalled held
    exact .shaking found (ha.trans advances) begins uncalled held
  | discarding found advances begins called free =>
    rw [ha.id] at called free
    exact .discarding found (ha.trans advances) begins called free
  | failed found advances ended absent called free shown =>
    rw [ha.id] at absent called free shown
    rw [ha.language, ha.root] at shown
    exact .failed found (ha.trans advances) ended absent called free fun latest => shown fun n other hother hk =>
      latest n other hother (hk.trans ha.key)
  | ready found advances => exact ha.id ▸ .ready found (ha.trans advances)

theorem Stands.found {client : Client σ} {progress : Progress AttemptPhase String}
    (h : Stands number session times client progress) :
    ∃ current, client.sessions.session? number = some current ∧ session.Advances current := by
  cases h with
  | shaking found advances _ _ _ | discarding found advances _ _ _ | failed found advances _ _ _ _ _
  | ready found advances => exact ⟨_, found, advances⟩

/-- How an attempt stands with its session, in terms of that session as it is now. -/
theorem Stands.current {client : Client σ} {current : Session} {progress : Progress AttemptPhase String}
    (h : Stands number session times client progress) (hs : client.sessions.session? number = some current) :
    session.Advances current ∧ Stands number current times client progress := by
  cases h with
  | shaking found advances begins uncalled held =>
    cases hs.symm.trans found
    exact ⟨advances, .shaking found (.refl _) begins (advances.id.symm ▸ uncalled) (advances.id.symm ▸ held)⟩
  | discarding found advances begins called free =>
    cases hs.symm.trans found
    exact ⟨advances, .discarding found (.refl _) begins (advances.id.symm ▸ called) (advances.id.symm ▸ free)⟩
  | @failed current fault found advances ended absent called free shown =>
    cases hs.symm.trans found
    rw [← advances.id] at absent called free shown
    rw [← advances.language, ← advances.root] at shown
    exact ⟨advances, .failed found (.refl _) ended absent called free fun latest =>
      shown fun n other hother hk => latest n other hother (hk.trans advances.key.symm)⟩
  | ready found advances =>
    cases hs.symm.trans found
    exact ⟨advances, advances.id ▸ .ready found (.refl _)⟩

/-- How an attempt stands shows in the tables and in the calls to stop processes. -/
theorem Stands.of_tables {client later : Client σ} {progress : Progress AttemptPhase String}
    (h : Stands number session times client progress) (ht : later.tables = client.tables)
    (hs : later.stopped = client.stopped) : Stands number session times later progress := by
  have hsessions : later.sessions = client.sessions := congrArg Tables.sessions ht
  have hpending : later.pending = client.pending := congrArg Tables.pending ht
  have hstatus : later.status = client.status := congrArg Tables.status ht
  cases h with
  | shaking found advances begins uncalled held =>
    exact .shaking (hsessions ▸ found) advances begins (hs ▸ uncalled) (hpending ▸ held)
  | discarding found advances begins called free =>
    exact .discarding (hsessions ▸ found) advances begins (hs ▸ called) (hpending ▸ free)
  | failed found advances ended absent called free shown =>
    refine .failed (hsessions ▸ found) advances ended (hsessions ▸ absent) (hs ▸ called) (hpending ▸ free) fun latest => ?_
    rw [hstatus]
    exact shown (hsessions ▸ latest)
  | ready found advances => exact .ready (hsessions ▸ found) advances

/-- How an attempt stands stays the same while others leave its session alone. -/
theorem Stands.leaves {before after : Client (σ × List Exchange)} {letters letters' : List Letter} {quits : Nat → Prop}
    {progress : Progress AttemptPhase String} (h : Stands number session times before progress)
    (lasts : before.pending.Lasts quits after.pending) (ha : before.pending.Apart)
    (passes : before.sessions.Advances after.sessions)
    (leaves : ∀ current, before.sessions.session? number = some current →
      Account.Leaves number current (before.account letters) (after.account letters'))
    (unasked : ∀ current, before.sessions.session? number = some current →
      current.stage = .initializing ∨ before.sessions.number? current.id = none → before.pending.FreeOf current.id →
      after.pending.FreeOf current.id) :
    Stands number session times after progress := by
  have hleaves : ∀ current, before.sessions.session? number = some current → session.Advances current →
      (∃ later, after.sessions.session? number = some later ∧ session.Advances later ∧ later.stage = current.stage) ∧
        after.sessions.number? session.id = before.sessions.number? session.id ∧
        after.stopped.count session.id = before.stopped.count session.id ∧
        (after.sessions.Latest number session → before.sessions.Latest number session ∧
          after.status.get? session.id = before.status.get? session.id) := by
    intro current found advances
    obtain ⟨⟨later, hlater, hadvances, hstage⟩, listed, stopped, shown⟩ := leaves current found
    rw [advances.id] at listed stopped shown
    refine ⟨⟨later, hlater, advances.trans hadvances, hstage⟩, listed, stopped, fun latest => ⟨?_, shown ?_⟩⟩
    · exact passes.latest (.refl session) latest
    · exact fun n other hother hk => latest n other hother (hk.trans advances.key)
  cases h with
  | shaking found advances begins uncalled held =>
    obtain ⟨⟨later, hlater, hadvances, hstage⟩, -, stopped, -⟩ := hleaves _ found advances
    exact .shaking hlater hadvances (hstage.trans begins) (stopped.trans uncalled) (held.lasts lasts ha)
  | discarding found advances begins called free =>
    obtain ⟨⟨later, hlater, hadvances, hstage⟩, -, stopped, -⟩ := hleaves _ found advances
    have hfree := unasked _ found (Or.inl begins)
    rw [advances.id] at hfree
    exact .discarding hlater hadvances (hstage.trans begins) (stopped.trans called) (hfree free)
  | failed found advances ended absent called free shown =>
    obtain ⟨⟨later, hlater, hadvances, hstage⟩, listed, stopped, hshown⟩ := hleaves _ found advances
    have hfree := unasked _ found
    rw [advances.id] at hfree
    refine .failed hlater hadvances (hstage.trans ended) (listed.trans absent) (stopped.trans called)
      (hfree (Or.inr absent) free) fun latest => ?_
    obtain ⟨hlatest, hsame⟩ := hshown latest
    exact hsame.trans (shown hlatest)
  | ready found advances =>
    obtain ⟨⟨later, hlater, hadvances, -⟩, -⟩ := hleaves _ found advances
    exact .ready hlater hadvances

theorem Fares.of_advances (h : Fares number session times before step) (ha : earlier.Advances session) :
    Fares number earlier times before step := by
  obtain ⟨hspares, hcalls, hstands⟩ := h
  rw [ha.id] at hspares hcalls
  exact ⟨hspares, hcalls, hstands.of_advances ha⟩

/-- What comes behind the step does not show in the tables. -/
theorem Fares.extend {later : Client (σ × List Exchange)} (h : Fares number session times before step)
    (ht : later.tables = step.1.tables) (hc : Calls [] [] step.1 later) :
    Fares number session times before (later, step.2) := by
  obtain ⟨hspares, ⟨stops, hown, hcalls⟩, hstands⟩ := h
  refine ⟨?_, ⟨stops, hown, ?_⟩, hstands.of_tables ht (hc.stopped.trans (List.append_nil _))⟩
  · rw [show (later, step.2).1.tables = later.tables from rfl, ht]
    exact hspares
  · have hboth := hcalls.trans hc
    rw [List.append_nil] at hboth
    exact hboth

theorem Fares.after (h : Fares number session times client step) (hs : before.tables.Spares session.id client.tables)
    {stops : List String} (hown : ∀ other ∈ stops, other = session.id) (hc : Calls stops [] before client) :
    Fares number session times before step := by
  obtain ⟨hspares, ⟨more, hmore, hcalls⟩, hstands⟩ := h
  refine ⟨hs.trans hspares, ⟨stops ++ more, fun other hm => ?_, hc.trans hcalls⟩, hstands⟩
  exact (List.mem_append.1 hm).elim (hown other) (hmore other)

/-- The process of a session was stopped, or not: the session is taken apart, and its server is shown as failed. -/
theorem fares_afterStopCall (hosts : client.tables.Hosts number session)
    (found : client.sessions.session? number = some session) (begins : session.stage = .initializing)
    (called : client.stopped.count session.id = times + 1) (free : client.pending.FreeOf session.id)
    {stopped : Progress Nat Unit} (hstopped : stopped ≠ .ends (.error .cancelled)) (fault : Fault) :
    Fares number session times client
      ((client.afterStopCall number session stopped).1.afterDiscard number session fault
        (client.afterStopCall number session stopped).2) := by
  have hdropped : ∀ next : Client (σ × List Exchange), Calls [] [] client next →
      next.tables = { client.tables.drop number session.id with
        status := client.status.set ⟨session.id, session.language, session.root, .error, some fault.message⟩ } →
      Fares number session times client (next, .ends (.error fault)) := by
    intro next hc ht
    have hsessions := congrArg Tables.sessions ht
    obtain ⟨current, hcurrent, hid, -⟩ := hosts.session?_remove
    have hsame : session.Advances { current with stage := .stopped } := by
      obtain ⟨taken, htaken, advances⟩ := client.sessions.advances_remove session.id number session found
      cases hcurrent.symm.trans htaken
      exact ⟨advances.id, advances.language, advances.root, session.stage.rank_le_stopped⟩
    refine ⟨?_, ⟨[], nofun, hc⟩, .failed ?_ hsame rfl ?_ ?_ ?_ fun _ => ?_⟩
    · rw [show (next, _).1.tables = next.tables from rfl, ht]
      exact hosts.spares_drop.trans
        (Tables.spares_show _ ⟨session.id, session.language, session.root, .error, some fault.message⟩)
    · change next.tables.sessions.session? number = _
      rw [hsessions]
      exact (SessionRegistry.session?_modify ..).trans (by rw [if_pos rfl, hcurrent]; rfl)
    · change next.tables.sessions.number? session.id = none
      rw [hsessions]
      exact (SessionRegistry.number?_remove ..).trans (if_pos rfl)
    · rw [show (next, _).1.stopped = next.stopped from rfl, hc.stopped, List.append_nil]
      exact called
    · change next.tables.pending.FreeOf session.id
      rw [ht]
      exact free
    · change next.tables.status.get? session.id = _
      rw [ht]
      exact (Entries.get?_set ..).trans (if_pos rfl)
  unfold afterStopCall
  split
  · exact ⟨.refl _ _, ⟨[], nofun, (Accords.refl client).calls⟩, .discarding found (.refl session) begins called free⟩
  · exact absurd rfl hstopped
  · split
    · exact hdropped _ (calls_of_account rfl rfl rfl) rfl
    · next cause _ =>
      obtain ⟨hstops, hstarts⟩ := (client.accords_log
        (.warning ("Error stopping server process " ++ session.id ++ ": " ++ cause.message))).calls
      exact hdropped _ ⟨hstops, hstarts⟩ rfl

/-- The handshake failed: the session is taken apart. -/
theorem fares_handshakeFailed (hstops : setup.layer.StopsUncancelled) (hosts : client.tables.Hosts number session)
    (found : client.sessions.session? number = some session) (begins : session.stage = .initializing)
    (uncalled : client.stopped.count session.id = times) (fault : Fault) :
    Fares number session times client (client.handshakeFailed setup.recorded number session fault) := by
  let logged := client.log (.error ("Handshake with " ++ session.id ++ " failed: " ++ fault.message))
  let pending := (client.pending.cancelAll ("Handshake failed: " ++ fault.message) (some session.id)).1
  have hlasts : client.pending.Lasts (fun _ => False) pending := client.pending.lasts_cancelAll _ (some session.id)
  have hasked := tables_ask (logged.setPending pending) setup (.stop session.id)
  have hcalls : Calls [session.id] [] client ((logged.setPending pending).ask setup.recorded (.stop session.id)).1 := by
    refine ((accords_log client _).calls.trans (logged.calls_setPending pending)).trans ?_
    have hplain : ∀ language root, LayerCall.stop session.id ≠ .start language root := fun _ _ => nofun
    exact calls_ask _ hplain
  let asked := (logged.setPending pending).ask setup.recorded (.stop session.id)
  have hcalled : asked.1.stopped.count session.id = times + 1 := by
    rw [hcalls.stopped, List.count_append, uncalled, List.count_singleton_self]
  have hhosts : asked.1.tables.Hosts number session := by
    rw [hasked]
    exact hosts.withPending (hlasts.apart hosts.apart)
  have hfound : asked.1.sessions.session? number = some session :=
    (congrArg (fun tables : Tables => tables.sessions.session? number) hasked).trans found
  have hfree : asked.1.pending.FreeOf session.id := by
    rw [show asked.1.pending = pending from congrArg Tables.pending hasked]
    exact fun entry hm => (Pending.mem_entries_cancelAll _ _ session.id entry hm).2
  have hspares : client.tables.Spares session.id asked.1.tables := by
    rw [hasked]
    exact Tables.spares_pending (hosts.apart.spares_cancelAll _)
  have hstopped : asked.2 ≠ .ends (.error .cancelled) :=
    ask_uncancelled _ fun state ticket => (hstops state ticket session.id).1
  unfold handshakeFailed
  rw [if_neg (by rw [begins]; decide)]
  exact (fares_afterStopCall hhosts hfound begins hcalled hfree hstopped fault).after hspares
    (fun _ hm => List.mem_singleton.1 hm) hcalls

/-- The handshake succeeded: the session is ready. -/
theorem fares_handshakeSucceeded (hosts : client.tables.Hosts number session)
    (found : client.sessions.session? number = some session) (begins : session.stage = .initializing) :
    Fares number session times client (client.handshakeSucceeded number session) := by
  unfold handshakeSucceeded
  rw [if_pos begins]
  have hspares : client.tables.Spares session.id ((client.setStage number .ready).setStatus session .running none).tables :=
    (hosts.spares_setStage .ready).trans
      (Tables.spares_show _ ⟨session.id, session.language, session.root, .running, none⟩)
  obtain ⟨hstops, hstarts⟩ := (((client.setStage number .ready).setStatus session .running none).accords_log
    (.info ("Server started and initialized: " ++ session.id))).calls
  have hrank : session.stage.rank ≤ SessionStage.ready.rank := by
    rw [begins]
    decide
  have hfound : (client.setStage number .ready).sessions.session? number = some { session with stage := .ready } :=
    (SessionRegistry.session?_modify ..).trans (by rw [if_pos rfl, found]; rfl)
  exact ⟨hspares, ⟨[], nofun, hstops, hstarts⟩, .ready hfound ⟨rfl, rfl, rfl, hrank⟩⟩

/-- The handshake came to an end, or not. -/
theorem fares_afterHandshake (hstops : setup.layer.StopsUncancelled) (hosts : before.tables.Hosts number session)
    (found : before.sessions.session? number = some session) (begins : session.stage = .initializing)
    (uncalled : before.stopped.count session.id = times)
    {step : Client (σ × List Exchange) × Progress HandshakePhase Unit} (h : Shakes number session.id before step) :
    Fares number session times before (step.1.afterHandshake setup.recorded number step.2) := by
  obtain ⟨htalks, hheld⟩ := h
  obtain ⟨client, shaken⟩ := step
  have hspares := htalks.spares hosts
  obtain ⟨current, hcurrent, advances, hstage, -⟩ := htalks.sessions.own session found
  have huncalled : client.stopped.count session.id = times := by
    rw [htalks.calls.stopped, List.append_nil]
    exact uncalled
  cases shaken with
  | waits handshake =>
    exact ⟨hspares, ⟨[], nofun, htalks.calls⟩,
      .shaking hcurrent advances (hstage.trans begins) huncalled (hheld handshake rfl)⟩
  | ends outcome =>
    have hhosts := htalks.hosts hosts
    have hlater : client.tables.Hosts number current := ⟨⟨current, hcurrent, rfl⟩, advances.id ▸ hhosts.seated, hhosts.apart⟩
    have hfares : Fares number current times client (client.afterHandshake setup.recorded number (.ends outcome)) := by
      unfold afterHandshake
      dsimp only
      rw [hcurrent]
      cases outcome with
      | ok _ => exact fares_handshakeSucceeded hlater hcurrent (hstage.trans begins)
      | error fault =>
        exact fares_handshakeFailed hstops hlater hcurrent (hstage.trans begins) (advances.id.symm ▸ huncalled) fault
    exact (hfares.of_advances advances).after hspares (fun _ hm => absurd hm List.not_mem_nil) htalks.calls

/-- **An attempt goes on behind the report that its server was started**, where its session is the one of the identifier
and nobody has disturbed it. -/
theorem fares_resumeAttempt (hstops : setup.layer.StopsUncancelled) (cancelled : Bool) (language root : String)
    (found : client.sessions.session? number = some session) (hosts : client.tables.Hosts number session)
    {phase : AttemptPhase} (uncancelled : cancelled = false) (stands : Stands number session times client (.waits phase)) :
    Fares number session times client (client.resumeAttempt setup.recorded cancelled language root phase) := by
  subst uncancelled
  cases stands with
  | @shaking current handshake hcurrent advances begins uncalled held =>
    cases found.symm.trans hcurrent
    unfold resumeAttempt
    dsimp only
    rw [found]
    exact fares_afterHandshake hstops hosts found begins uncalled (shakes_resumeHandshake hosts.apart session false held)
  | @discarding current ticket fault hcurrent advances begins called free =>
    cases found.symm.trans hcurrent
    have htables := client.tables_goOn setup false (.stop session.id)
    have hplain : ∀ language root, LayerCall.stop session.id ≠ .start language root := fun _ _ => nofun
    have hcalls : Calls [] [] client (client.goOn setup.recorded false (.stop session.id)).1 :=
      client.calls_goOn hplain false
    have hcalled : (client.goOn setup.recorded false (.stop session.id)).1.stopped.count session.id = times + 1 := by
      rw [hcalls.stopped, List.append_nil]
      exact called
    have hfound := (congrArg (fun tables : Tables => tables.sessions.session? number) htables).trans found
    unfold resumeAttempt
    dsimp only
    rw [found]
    have hfree : (client.goOn setup.recorded false (.stop session.id)).1.pending.FreeOf session.id := by
      rw [show (client.goOn setup.recorded false (.stop session.id)).1.pending = client.pending from
        congrArg Tables.pending htables]
      exact free
    refine (fares_afterStopCall (htables ▸ hosts) hfound begins hcalled hfree ?_ fault).after (htables ▸ .refl _ _)
      (fun _ hm => absurd hm List.not_mem_nil) hcalls
    exact client.goOn_uncancelled fun state ticket => (hstops state ticket session.id).2

end Faring

/-! ## Attempts whose server is started -/

/-- A step of an attempt whose server was not started: of what the client keeps about its sessions nothing changes but
what is known about downloads, and no process is stopped. -/
structure Pends (before : Client (σ × List Exchange)) (step : Client (σ × List Exchange) × Progress AttemptPhase String) :
    Prop where
  tables : step.1.tables = { before.tables with status := step.1.status }
  servers : step.1.status.servers = before.status.servers
  calls : Calls [] [] before step.1
  unfounded : ∀ phase, step.2 = .waits phase → phase.session? = none

/-- In a step of an attempt its server was started: the step leaves alone what belongs to other sessions, but that the
status that was shown before for the language and the root is dropped. -/
structure Founds (session : Session) (before : Client (σ × List Exchange))
    (step : Client (σ × List Exchange) × Progress AttemptPhase String) : Prop where
  spares : ({ before.tables with status := step.1.status } : Tables).Spares session.id step.1.tables
  calls : ∃ stops, (∀ other ∈ stops, other = session.id) ∧ Calls stops [session.id] before step.1
  stands : Stands before.sessions.sessions.length session (before.stopped.count session.id) step.1 step.2

/-- How an attempt goes on whose server was not started before, and of which it was reported what it was in a step. -/
def Goes (language root : String) (before : Client (σ × List Exchange))
    (step : Client (σ × List Exchange) × Progress AttemptPhase String) : Prop :=
  Pends before step ∨ ∃ id, Founds (.begin id language root) before step

section Founding

variable {before client : Client (σ × List Exchange)} {setup : Setup σ} {session : Session} {language root : String}
  {step : Client (σ × List Exchange) × Progress AttemptPhase String}

/-- What came before in the step does not show in the tables. -/
theorem Goes.after (h : Goes language root client step) (ht : client.tables = before.tables)
    (hc : Calls [] [] before client) : Goes language root before step := by
  have hsessions : client.sessions = before.sessions := congrArg Tables.sessions ht
  have hstatus : client.status = before.status := congrArg Tables.status ht
  rcases h with ⟨tables, servers, calls, unfounded⟩ | ⟨id, spares, ⟨stops, own, calls⟩, stands⟩
  · exact Or.inl ⟨ht ▸ tables, hstatus ▸ servers, hc.trans calls, unfounded⟩
  · refine Or.inr ⟨id, ht ▸ spares, ⟨stops, own, hc.trans calls⟩, ?_⟩
    rw [hsessions, hc.stopped, List.append_nil] at stands
    exact stands

theorem apart_of_tables {later : Client (σ × List Exchange)} (ht : later.tables = client.tables)
    (ha : client.pending.Apart) : later.pending.Apart := by
  have hpending : later.pending = client.pending := congrArg Tables.pending ht
  rw [hpending]
  exact ha

/-- What comes behind the step does not show in the tables. -/
theorem Goes.extend {later : Client (σ × List Exchange)} (h : Goes language root before step)
    (ht : later.tables = step.1.tables) (hc : Calls [] [] step.1 later) :
    Goes language root before (later, step.2) := by
  have hstatus : later.status = step.1.status := congrArg Tables.status ht
  rcases h with ⟨tables, servers, calls, unfounded⟩ | ⟨id, spares, ⟨stops, own, calls⟩, stands⟩
  · refine Or.inl ⟨?_, hstatus ▸ servers, calls.trans hc, unfounded⟩
    rw [show (later, step.2).1.tables = later.tables from rfl, ht, tables, hstatus]
  · have hboth := calls.trans hc
    rw [List.append_nil, List.append_nil] at hboth
    refine Or.inr ⟨id, ?_, ⟨stops, own, hboth⟩, stands.of_tables ht (hc.stopped.trans (List.append_nil _))⟩
    rw [show (later, step.2).1.tables = later.tables from rfl, ht, hstatus]
    exact spares

/-- The attempt fails, and nothing has changed. -/
theorem pends_fails (client : Client (σ × List Exchange)) (fault : Fault) : Pends client (client, .ends (.error fault)) :=
  ⟨rfl, rfl, (Accords.refl client).calls, nofun⟩

theorem pends_waits (client : Client (σ × List Exchange)) {phase : AttemptPhase} (h : phase.session? = none) :
    Pends client (client, .waits phase) := by
  refine ⟨rfl, rfl, (Accords.refl client).calls, fun waiting hw => ?_⟩
  cases hw
  exact h

theorem tables_enrol (client : Client (σ × List Exchange)) (session : Session) :
    (client.enrol session).tables = { client.tables with
      sessions := client.sessions.add session
      status := (client.enrol session).status } := by
  unfold enrol
  split <;> rfl

theorem calls_enrol (client : Client (σ × List Exchange)) (session : Session) :
    Calls [] [] client (client.enrol session) := by
  unfold enrol
  split <;> exact calls_of_account rfl rfl rfl

theorem session?_enrol (client : Client (σ × List Exchange)) (session : Session) (number : Nat) :
    (client.enrol session).sessions.session? number =
      if number = client.sessions.sessions.length then some session else client.sessions.session? number := by
  rw [show (client.enrol session).sessions = _ from congrArg Tables.sessions (client.tables_enrol session)]
  exact client.sessions.session?_add session number

/-- The session that is registered is the one of its identifier. -/
theorem hosts_enrol (ha : client.pending.Apart) (session : Session) :
    (client.enrol session).tables.Hosts client.sessions.sessions.length session where
  found := ⟨session, (client.session?_enrol session _).trans (if_pos rfl), rfl⟩
  seated _ _ _ := by
    rw [tables_enrol]
    left
    change (client.sessions.numbers.set session.id _).get? session.id = _
    rw [Entries.get?_set, if_pos rfl]
  apart := by
    rw [tables_enrol]
    exact ha

theorem spares_enrol (client : Client (σ × List Exchange)) (session : Session) :
    ({ client.tables with status := (client.enrol session).status } : Tables).Spares session.id
      (client.enrol session).tables := by
  rw [tables_enrol]
  refine ⟨fun number other found _ => ?_, Entries.filter_set_ne session.id _ client.sessions.numbers, rfl, rfl,
    fun _ _ => rfl, .refl _ _⟩
  have hlt : number < client.sessions.sessions.length := SessionRegistry.lt_length found
  refine (client.sessions.session?_add session number).trans ?_
  rw [if_neg (Nat.ne_of_lt hlt)]
  exact found

/-- The server was started: its session is registered, and the handshake begins. -/
theorem founds_enrol (hstops : setup.layer.StopsUncancelled) (ha : client.pending.Apart)
    (ht : client.tables = before.tables) (begins : session.stage = .initializing)
    (hc : Calls [] [session.id] before client)
    {step : Client (σ × List Exchange) × Progress HandshakePhase Unit}
    (h : Shakes client.sessions.sessions.length session.id (client.enrol session) step) :
    Founds session before (step.1.afterHandshake setup.recorded client.sessions.sessions.length step.2) := by
  have hsessions : client.sessions = before.sessions := congrArg Tables.sessions ht
  have hstopped : client.stopped = before.stopped := hc.stopped.trans (List.append_nil _)
  have hfound : (client.enrol session).sessions.session? client.sessions.sessions.length = some session :=
    (client.session?_enrol session _).trans (if_pos rfl)
  have hcalls := client.calls_enrol session
  have huncalled : (client.enrol session).stopped = client.stopped := hcalls.stopped.trans (List.append_nil _)
  obtain ⟨hspares, ⟨stops, hown, hmore⟩, hstands⟩ :=
    fares_afterHandshake hstops (hosts_enrol ha session) hfound begins (by rw [huncalled]) h
  refine ⟨ht ▸ ((client.spares_enrol session).trans hspares).withStatus, ⟨stops, hown, ?_⟩, ?_⟩
  · exact (hc.trans hcalls).trans hmore
  · rw [← hsessions, ← hstopped]
    exact hstands

theorem goes_afterServerStart (hstops : setup.layer.StopsUncancelled) (ha : client.pending.Apart)
    (hopen : client.isClosing = false) (ht : client.tables = before.tables) {started : Progress Nat StartResult}
    (hc : Calls [] (reports started) before client) :
    Goes language root before (client.afterServerStart setup.recorded language root started) := by
  cases started with
  | waits ticket => exact Goes.after (Or.inl (client.pends_waits rfl)) ht hc
  | ends outcome =>
    cases outcome with
    | error fault => exact Goes.after (Or.inl (client.pends_fails fault)) ht hc
    | ok result =>
      unfold afterServerStart
      dsimp only
      cases hs : result.success with
      | false =>
        simp only [reports, hs, Bool.false_eq_true, if_false] at hc
        exact Goes.after (Or.inl (client.pends_fails _)) ht hc
      | true =>
        simp only [reports, hs, if_true] at hc
        rw [if_neg (by decide), hopen, if_neg (by decide)]
        exact Or.inr ⟨result.session, founds_enrol hstops ha ht rfl hc (shakes_shakeHands (hosts_enrol ha _).apart _)⟩

theorem goes_startServer (hstops : setup.layer.StopsUncancelled) (ha : client.pending.Apart)
    (hopen : client.isClosing = false) : Goes language root client (client.startServer setup.recorded language root) := by
  have htables := client.tables_ask setup (.start language root)
  refine goes_afterServerStart hstops (apart_of_tables htables ha) ?_ htables (client.calls_ask_start language root)
  · rw [isClosing_ask]
    exact hopen

/-- It is known what can be done about the server, or not: nothing changes but what is known about downloads. -/
theorem pends_afterInspection (client : Client (σ × List Exchange)) (setup : Setup (σ × List Exchange))
    (language : String) (inspected : Progress Nat Availability) :
    Pends client (client.afterInspection setup language inspected) := by
  unfold afterInspection
  split
  · exact client.pends_waits rfl
  · exact client.pends_fails _
  · dsimp only
    split
    · refine ⟨rfl, ?_, calls_of_account rfl rfl rfl, nofun⟩
      unfold StatusBoard.addDownload
      split <;> rfl
    · exact client.pends_fails _

theorem goes_afterCheck (hstops : setup.layer.StopsUncancelled) (ha : client.pending.Apart)
    (hopen : client.isClosing = false) (checked : Progress Nat Bool) :
    Goes language root client (client.afterCheck setup.recorded language root checked) := by
  unfold afterCheck
  split
  · exact Or.inl (client.pends_waits rfl)
  · exact Or.inl (client.pends_fails _)
  · exact goes_startServer hstops ha hopen
  · have hplain : ∀ other directory, LayerCall.inspect language ≠ .start other directory := fun _ _ => nofun
    exact Goes.after (Or.inl (pends_afterInspection _ setup.recorded language _)) (client.tables_ask setup _)
      (client.calls_ask hplain)

/-- **An attempt begins.** -/
theorem goes_attempt (hstops : setup.layer.StopsUncancelled) (ha : client.pending.Apart)
    (hopen : client.isClosing = false) (language root : String) :
    Goes language root client (client.attempt setup.recorded language root) := by
  let logged := client.log (.info ("Starting server for " ++ language ++ " in " ++ root))
  have htables : (logged.ask setup.recorded (.check language)).1.tables = client.tables := logged.tables_ask setup _
  have hplain : ∀ other directory, LayerCall.check language ≠ .start other directory := fun _ _ => nofun
  refine (goes_afterCheck hstops (apart_of_tables htables ha) ?_ _).after htables ?_
  · rw [isClosing_ask]
    exact hopen
  · exact (client.accords_log _).calls.trans (logged.calls_ask hplain)

/-- **An attempt goes on whose server was not started yet.** -/
theorem goes_resumeAttempt (hstops : setup.layer.StopsUncancelled) (ha : client.pending.Apart)
    (hopen : client.isClosing = false) (cancelled : Bool) (language root : String) {phase : AttemptPhase}
    (unfounded : phase.session? = none) :
    Goes language root client (client.resumeAttempt setup.recorded cancelled language root phase) := by
  have hapart : ∀ call, (client.goOn setup.recorded cancelled call).1.pending.Apart := fun call =>
    apart_of_tables (client.tables_goOn setup cancelled call) ha
  have hclosing : ∀ call, (client.goOn setup.recorded cancelled call).1.isClosing = false := fun call =>
    (client.isClosing_goOn setup cancelled call).trans hopen
  cases phase with
  | checking ticket =>
    have hplain : ∀ other directory, LayerCall.check language ≠ .start other directory := fun _ _ => nofun
    exact (goes_afterCheck hstops (hapart _) (hclosing _) _).after (client.tables_goOn setup cancelled _)
      (client.calls_goOn hplain cancelled)
  | inspecting ticket =>
    have hplain : ∀ other directory, LayerCall.inspect language ≠ .start other directory := fun _ _ => nofun
    exact Goes.after (Or.inl (pends_afterInspection _ setup.recorded language _)) (client.tables_goOn setup cancelled _)
      (client.calls_goOn hplain cancelled)
  | starting ticket =>
    exact goes_afterServerStart hstops (hapart _) (hclosing _) (client.tables_goOn setup cancelled _)
      (client.calls_goOn_start cancelled language root)
  | aborting ticket id =>
    have hplain : ∀ other directory, LayerCall.stop id ≠ .start other directory := fun _ _ => nofun
    have hstopped : ∀ (next : Client (σ × List Exchange)) (stopped : Progress Nat Unit),
        Pends next (next.afterAbort language id stopped) := by
      intro next stopped
      unfold afterAbort
      split
      · exact next.pends_waits rfl
      · exact next.pends_fails _
      · exact next.pends_fails _
    exact Goes.after (Or.inl (hstopped _ _)) (client.tables_goOn setup cancelled _)
      (client.calls_goOn hplain cancelled)
  | shaking number handshake => cases unfounded
  | discarding ticket number fault => cases unfounded

end Founding

end Client

end LanguageSessions
