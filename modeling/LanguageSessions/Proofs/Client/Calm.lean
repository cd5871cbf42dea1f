import LanguageSessions.Client.Request
import LanguageSessions.Proofs.Session.Registry

/-!
# What leaves the starts alone

Most of what the client does neither launches nor forgets an attempt and gets no live session: it is calm (`Calm`). An
operation that goes on calmly and waits for a ticket waits for a fresh one (`Proceeds`), so that no two of them wait for
the same.
-/

namespace LanguageSessions

/-! ## Calm changes -/

/-- What an attempt starts a session for. -/
def Attempt.key (attempt : Attempt) : String × String := (attempt.language, attempt.root)

/-- An attempt that others may have joined meanwhile. -/
structure Attempt.Joined (before after : Attempt) : Prop where
  key : after.key = before.key
  outcome : after.outcome = before.outcome
  isCancelled : after.isCancelled = before.isCancelled
  joiners : ∀ joiner ∈ before.joiners, joiner ∈ after.joiners

theorem Attempt.Joined.refl (attempt : Attempt) : attempt.Joined attempt := ⟨rfl, rfl, rfl, fun _ h => h⟩

theorem Attempt.Joined.trans {first second third : Attempt} (h : first.Joined second) (h' : second.Joined third) :
    first.Joined third :=
  ⟨h'.key.trans h.key, h'.outcome.trans h.outcome, h'.isCancelled.trans h.isCancelled,
    fun joiner hj => h'.joiners joiner (h.joiners joiner hj)⟩

/-- Whether a turn neither begins nor forgets an attempt. -/
def Turn.isCalm : Turn → Bool
  | .launch _ | .forget _ => false
  | _ => true

namespace Client

variable {σ φ ψ α β : Type}

/-- The attempts go on: the same ones are under way, others may have joined, and the turns to come may be in another
order, with more of them. -/
structure Quiet (before after : Client σ) : Prop where
  starting : after.starting = before.starting
  length : after.attempts.length = before.attempts.length
  attempt : ∀ (number : Nat) (attempt : Attempt), before.attempts[number]? = some attempt →
    ∃ later, after.attempts[number]? = some later ∧ attempt.Joined later
  queue : ∃ turns, after.queue.Perm (before.queue ++ turns) ∧ ∀ turn ∈ turns, turn.isCalm = true
  tickets : before.tickets ≤ after.tickets

/-- The attempts go on, and no session becomes live. -/
structure Still (before after : Client σ) : Prop extends Quiet before after where
  sessions : before.sessions.Wanes after.sessions

/-- The attempts go on, no session becomes live, and the turns to come stay in order, with more of them behind. -/
structure Calm (before after : Client σ) : Prop extends Still before after where
  order : before.queue <+: after.queue

theorem Quiet.trans {first second third : Client σ} (h : Quiet first second) (h' : Quiet second third) :
    Quiet first third where
  starting := h'.starting.trans h.starting
  length := h'.length.trans h.length
  attempt number attempt ha := by
    obtain ⟨attempt', ha', hj⟩ := h.attempt number attempt ha
    obtain ⟨attempt'', ha'', hj'⟩ := h'.attempt number attempt' ha'
    exact ⟨attempt'', ha'', hj.trans hj'⟩
  queue := by
    obtain ⟨turns, hq, hc⟩ := h.queue
    obtain ⟨turns', hq', hc'⟩ := h'.queue
    refine ⟨turns ++ turns', ?_, fun turn ht => ?_⟩
    · rw [← List.append_assoc]
      exact hq'.trans (hq.append_right turns')
    · exact (List.mem_append.1 ht).elim (hc turn) (hc' turn)
  tickets := Nat.le_trans h.tickets h'.tickets

theorem Calm.trans {first second third : Client σ} (h : Calm first second) (h' : Calm second third) :
    Calm first third := ⟨⟨h.toQuiet.trans h'.toQuiet, h.sessions.trans h'.sessions⟩, h.order.trans h'.order⟩

/-- A change of something else, as far as the attempts are concerned. -/
theorem quiet_of_eq {before after : Client σ} (starting : after.starting = before.starting)
    (attempts : after.attempts = before.attempts) (queue : after.queue.Perm before.queue)
    (tickets : after.tickets = before.tickets) : Quiet before after where
  starting := starting
  length := by rw [attempts]
  attempt number attempt ha := ⟨attempt, attempts ▸ ha, .refl attempt⟩
  queue := ⟨[], by rw [List.append_nil]; exact queue, nofun⟩
  tickets := Nat.le_of_eq tickets.symm

/-- A change of something else, and maybe of sessions that are ended or taken out. -/
theorem calm_of_wanes {before after : Client σ} (sessions : before.sessions.Wanes after.sessions)
    (starting : after.starting = before.starting) (attempts : after.attempts = before.attempts)
    (queue : after.queue = before.queue) (tickets : after.tickets = before.tickets) : Calm before after :=
  ⟨⟨quiet_of_eq starting attempts (.of_eq queue) tickets, sessions⟩, queue ▸ List.prefix_refl _⟩

/-- A change of something else. -/
theorem calm_of_eq {before after : Client σ} (sessions : after.sessions = before.sessions)
    (starting : after.starting = before.starting) (attempts : after.attempts = before.attempts)
    (queue : after.queue = before.queue) (tickets : after.tickets = before.tickets) : Calm before after :=
  calm_of_wanes (sessions ▸ .refl _) starting attempts queue tickets

theorem Calm.refl (client : Client σ) : Calm client client := calm_of_eq rfl rfl rfl rfl rfl

/-- An attempt that is there later on was there before. -/
theorem Quiet.attempt_before {before after : Client σ} (h : Quiet before after) {number : Nat} {later : Attempt}
    (ha : after.attempts[number]? = some later) :
    ∃ attempt, before.attempts[number]? = some attempt ∧ attempt.Joined later := by
  have hlt := (List.getElem?_eq_some_iff.1 ha).1
  rw [h.length] at hlt
  obtain ⟨later', hl, hj⟩ := h.attempt number _ (List.getElem?_eq_getElem hlt)
  cases hl.symm.trans ha
  exact ⟨_, List.getElem?_eq_getElem hlt, hj⟩

theorem Quiet.mem_queue {before after : Client σ} (h : Quiet before after) {turn : Turn} (ht : turn ∈ before.queue) :
    turn ∈ after.queue := by
  obtain ⟨turns, hq, -⟩ := h.queue
  exact hq.mem_iff.2 (List.mem_append_left _ ht)

/-- What concerns the starts is the same before and after. -/
structure Same (before after : Client σ) : Prop where
  sessions : after.sessions = before.sessions
  starting : after.starting = before.starting
  attempts : after.attempts = before.attempts
  queue : after.queue = before.queue
  tickets : after.tickets = before.tickets

theorem Same.calm {before after : Client σ} (h : Same before after) : Calm before after :=
  calm_of_eq h.sessions h.starting h.attempts h.queue h.tickets

theorem Same.trans {first second third : Client σ} (h : Same first second) (h' : Same second third) :
    Same first third :=
  ⟨h'.sessions.trans h.sessions, h'.starting.trans h.starting, h'.attempts.trans h.attempts, h'.queue.trans h.queue,
    h'.tickets.trans h.tickets⟩

/-! ## Small changes -/

section Small

variable (client : Client σ)

theorem calm_note (effect : Effect) : Calm client (client.note effect) := calm_of_eq rfl rfl rfl rfl rfl

theorem calm_log (entry : LogEntry) : Calm client (client.log entry) := client.calm_note _

theorem calm_logAll (entries : Log) : Calm client (client.logAll entries) := by
  induction entries generalizing client with
  | nil => exact .refl client
  | cons entry entries ih => exact (client.calm_log entry).trans (ih (client.log entry))

theorem calm_pushAll {turns : List Turn} (h : ∀ turn ∈ turns, turn.isCalm = true) :
    Calm client (client.pushAll turns) where
  starting := rfl
  length := rfl
  attempt _ attempt ha := ⟨attempt, ha, .refl attempt⟩
  queue := ⟨turns, .refl _, h⟩
  tickets := Nat.le_refl _
  sessions := .refl _
  order := List.prefix_append _ _

theorem calm_push {turn : Turn} (h : turn.isCalm = true) : Calm client (client.push turn) :=
  client.calm_pushAll fun t ht => by rw [List.mem_singleton.1 ht]; exact h

theorem calm_changeSession (number : Nat) {f : Session → Session} (h : ∀ session : Session, session.Wanes (f session)) :
    Calm client (client.changeSession number f) :=
  calm_of_wanes (SessionRegistry.wanes_modify _ number h) rfl rfl rfl rfl

theorem calm_setStage (number : Nat) {stage : SessionStage} (h : stage.isEnding = true) :
    Calm client (client.setStage number stage) :=
  client.calm_changeSession number fun _ => ⟨rfl, rfl, Or.inr h⟩

theorem calm_setStatus (session : Session) (state : RunState) (error : Option String) :
    Calm client (client.setStatus session state error) := calm_of_eq rfl rfl rfl rfl rfl

theorem calm_changeBinding (number : Nat) (f : Binding → Binding) : Calm client (client.changeBinding number f) :=
  calm_of_eq rfl rfl rfl rfl rfl

theorem calm_setPending (pending : Pending) : Calm client (client.setPending pending) := by
  have hc : Calm client { client with pending } := calm_of_eq rfl rfl rfl rfl rfl
  refine hc.trans (calm_pushAll _ ?_)
  intro turn ht
  obtain ⟨index, -, rfl⟩ := List.mem_map.1 ht
  rfl

/-- Another one joins an attempt. -/
theorem calm_joined (number : Nat) (joiner : Joiner) :
    Calm client { client with
      attempts := client.attempts.modify number fun entry => { entry with joiners := entry.joiners ++ [joiner] } } where
  starting := rfl
  length := List.length_modify ..
  attempt other attempt ha := by
    rw [List.getElem?_modify, ha]
    split
    · exact ⟨_, rfl, rfl, rfl, rfl, fun _ hj => List.mem_append_left _ hj⟩
    · exact ⟨attempt, rfl, .refl attempt⟩
  queue := ⟨[], .of_eq (List.append_nil _).symm, nofun⟩
  tickets := Nat.le_refl _
  sessions := .refl _
  order := List.prefix_refl _

/-- Tickets are given out. -/
theorem calm_tickets (gathers : Entries Nat Nat) :
    Calm client { client with tickets := client.tickets + 1, gathers } where
  starting := rfl
  length := rfl
  attempt _ attempt ha := ⟨attempt, ha, .refl attempt⟩
  queue := ⟨[], .of_eq (List.append_nil _).symm, nofun⟩
  tickets := Nat.le_succ _
  sessions := .refl _
  order := List.prefix_refl _

end Small

/-! ## Going on calmly -/

/-- A ticket that was given out between two states. -/
def Fresh (before after : Client σ) : Signal → Prop
  | .ticket number => before.tickets ≤ number ∧ number < after.tickets
  | .promise _ => True

/-- A step is calm, and a ticket that it waits for then is fresh. -/
structure Proceeds (signal : φ → Signal) (before : Client σ) (step : Client σ × Progress φ α) : Prop where
  calm : Calm before step.1
  fresh : ∀ phase, step.2 = .waits phase → Fresh before step.1 (signal phase)

section Proceeds

variable {signal : φ → Signal} {signal' : ψ → Signal} {before client : Client σ} {step : Client σ × Progress φ α}

theorem Proceeds.ends (h : Calm before client) (outcome : Except Fault α) :
    Proceeds signal before (client, .ends outcome) := ⟨h, nofun⟩

/-- To wait in another phase for the same signal. -/
theorem Proceeds.waits {phase : φ} {phase' : ψ}
    (h : Proceeds signal before ((client, .waits phase) : Client σ × Progress φ α))
    (hs : signal' phase' = signal phase) :
    Proceeds signal' before ((client, .waits phase') : Client σ × Progress ψ β) :=
  ⟨h.calm, fun _ hp => by cases hp; exact hs ▸ h.fresh phase rfl⟩

theorem Proceeds.after (hc : Calm before client) (h : Proceeds signal client step) : Proceeds signal before step where
  calm := hc.trans h.calm
  fresh phase hp := by
    have hf := h.fresh phase hp
    cases hs : signal phase with
    | promise index => trivial
    | ticket number =>
      rw [hs] at hf
      exact ⟨Nat.le_trans hc.tickets hf.1, hf.2⟩

/-- The phase and what is given back may be put in other words. -/
theorem Proceeds.inPhase {f : φ → ψ} (h : Proceeds signal before step)
    (hs : ∀ phase, signal' (f phase) = signal phase) :
    Proceeds signal' before (step.1, step.2.inPhase f) := by
  obtain ⟨client, progress⟩ := step
  cases progress with
  | waits phase => exact h.waits (hs phase)
  | ends outcome => exact .ends h.calm outcome

theorem Proceeds.map (g : α → β) (h : Proceeds signal before step) : Proceeds signal before (step.1, step.2.map g) := by
  obtain ⟨client, progress⟩ := step
  cases progress with
  | waits phase => exact h.waits rfl
  | ends outcome => exact .ends h.calm _

end Proceeds

/-! ## Calling the process layer -/

section Calling

variable (client : Client σ) (setup : Setup σ)

theorem proceeds_afterCall (step : LayerStep σ α) : Proceeds Signal.ticket client (client.afterCall step) := by
  have hc : Calm client ({ client with layer := step.layer }.pushAll (step.deliveries.map .deliver)) := by
    have hc : Calm client { client with layer := step.layer } := calm_of_eq rfl rfl rfl rfl rfl
    refine hc.trans (calm_pushAll _ ?_)
    intro turn ht
    obtain ⟨delivery, -, rfl⟩ := List.mem_map.1 ht
    rfl
  unfold afterCall
  cases step.reply with
  | waits =>
    refine ⟨⟨⟨⟨hc.starting, hc.length, hc.attempt, hc.queue, Nat.le_succ _⟩, hc.sessions⟩, hc.order⟩, fun ticket ht => ?_⟩
    cases ht
    exact ⟨Nat.le_refl _, Nat.lt_succ_self _⟩
  | returns answer => exact .ends hc _
  | raises fault => exact .ends hc _

theorem proceeds_ask (call : LayerCall) : Proceeds Signal.ticket client (client.ask setup call) :=
  (proceeds_afterCall _ _).after (client.calm_note _)

theorem proceeds_goOn (cancelled : Bool) (call : LayerCall) :
    Proceeds Signal.ticket client (client.goOn setup cancelled call) := by
  unfold goOn
  split
  · exact .ends (.refl client) _
  · exact proceeds_afterCall _ _

end Calling

/-! ## Requests and notifications -/

section Requests

variable {before : Client σ}

theorem proceeds_afterNotice (message : Outgoing) {step : Client σ × Progress Nat Unit}
    (h : Proceeds Signal.ticket before step) :
    Proceeds NoticePhase.signal before (step.1.afterNotice message step.2) := by
  obtain ⟨client, sent⟩ := step
  dsimp only [afterNotice]
  split
  · exact h.waits rfl
  all_goals exact .ends h.calm _

theorem proceeds_notify (client : Client σ) (setup : Setup σ) (session method : String) (params : Json) :
    Proceeds NoticePhase.signal client (client.notify setup session method params) := by
  unfold notify
  dsimp only
  exact proceeds_afterNotice _ (client.proceeds_ask setup _)

theorem proceeds_notifyIfPrintable (client : Client σ) (setup : Setup σ) (session method : String) (params : Json) :
    Proceeds NoticePhase.signal client (client.notifyIfPrintable setup session method params) := by
  unfold notifyIfPrintable
  split
  · exact client.proceeds_notify setup session method params
  · exact .ends (.refl client) _

theorem proceeds_resumeNotice (client : Client σ) (setup : Setup σ) (cancelled : Bool) (phase : NoticePhase) :
    Proceeds NoticePhase.signal client (client.resumeNotice setup cancelled phase) := by
  unfold resumeNotice
  dsimp only
  exact proceeds_afterNotice _ (client.proceeds_goOn setup cancelled _)

theorem proceeds_awaitPromise (client : Client σ) (promise : Nat) :
    Proceeds RequestPhase.signal client (client.awaitPromise promise) := by
  unfold awaitPromise
  split
  · exact .ends (.refl client) _
  · exact ⟨.refl client, fun phase hp => by cases hp; trivial⟩

theorem proceeds_afterSend (id : RequestId) (promise : Nat) (message : Outgoing) {step : Client σ × Progress Nat Unit}
    (h : Proceeds Signal.ticket before step) :
    Proceeds RequestPhase.signal before (step.1.afterSend id promise message step.2) := by
  obtain ⟨client, sent⟩ := step
  dsimp only [afterSend]
  split
  · exact h.waits rfl
  · exact (proceeds_awaitPromise client promise).after h.calm
  · exact .ends h.calm _
  · refine (proceeds_awaitPromise _ promise).after (h.calm.trans ?_)
    exact (client.calm_setPending _).trans (calm_logAll _ _)

theorem proceeds_request (client : Client σ) (setup : Setup σ) (session method : String) (params : Json)
    (delay : Option Binary64) :
    Proceeds RequestPhase.signal client (client.request setup session method params delay) := by
  unfold request
  split
  · exact .ends (.refl client) _
  · dsimp only
    split
    · refine .ends ?_ _
      exact calm_of_eq rfl rfl rfl rfl rfl
    · refine proceeds_afterSend _ _ _ ((proceeds_ask _ setup _).after ?_)
      exact calm_of_eq rfl rfl rfl rfl rfl

theorem proceeds_requestIfPrintable (client : Client σ) (setup : Setup σ) (session method : String) (params : Json)
    (delay : Option Binary64) :
    Proceeds RequestPhase.signal client (client.requestIfPrintable setup session method params delay) := by
  unfold requestIfPrintable
  split
  · refine .ends ?_ _
    exact calm_of_eq rfl rfl rfl rfl rfl
  · exact client.proceeds_request setup session method params delay

/-- Parameters that can be written are sent as they are. -/
theorem requestIfPrintable_of_printable (client : Client σ) (setup : Setup σ) (session method : String) {params : Json}
    (delay : Option Binary64) (h : params.isPrintable = true) :
    client.requestIfPrintable setup session method params delay = client.request setup session method params delay := by
  rw [requestIfPrintable, h, Bool.not_true, Bool.and_false, if_neg Bool.false_ne_true]

/-- Those that cannot be written take an identifier, and nothing is sent. -/
theorem requestIfPrintable_of_unprintable (client : Client σ) (setup : Setup σ) {session : String} (method : String)
    {params : Json} (delay : Option Binary64) (registered : client.sessions.has session = true)
    (h : params.isPrintable = false) :
    client.requestIfPrintable setup session method params delay =
      ({ client with pending := client.pending.nextId.1 }, .ends (.error .longInteger)) := by
  rw [requestIfPrintable, registered, h, Bool.not_false, Bool.and_self, if_pos rfl]

theorem proceeds_resumeRequest (client : Client σ) (setup : Setup σ) (cancelled : Bool) (phase : RequestPhase) :
    Proceeds RequestPhase.signal client (client.resumeRequest setup cancelled phase) := by
  unfold resumeRequest
  split
  · dsimp only
    exact proceeds_afterSend _ _ _ (client.proceeds_goOn setup cancelled _)
  · split
    · exact .ends (.refl client) _
    · exact client.proceeds_awaitPromise _

end Requests

end Client

end LanguageSessions
