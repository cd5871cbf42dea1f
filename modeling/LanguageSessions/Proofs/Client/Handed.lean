import LanguageSessions.Client.Operation
import LanguageSessions.Proofs.Client.Calm
import LanguageSessions.Proofs.Client.Hearing

/-!
# What was handed over

`handed` lists the messages that the process layer was handed for a session. Most of what a client does is aside from
that (`Aside`): it leaves all sessions alone, hands nothing over and launches no attempt. So it is with the messages of
servers (`aside_hear`), and with whatever goes on that only waits for an answer (`aside_resumeActivity`).
-/

namespace LanguageSessions

/-- The text that is handed over for a session, if the effect is that. -/
def Effect.handed? (id : String) : Effect → Option String
  | .called (.send session text) => if session = id then some text else none
  | _ => none

namespace Client

variable {σ : Type}

/-- The messages that were handed over for a session, the oldest first. -/
def handed (client : Client σ) (id : String) : List String := client.history.filterMap (Effect.handed? id)

/-- No session changes, nothing is handed over, and no attempt is launched. -/
structure Aside (before after : Client σ) : Prop where
  sessions : after.sessions = before.sessions
  handed : ∀ id, after.handed id = before.handed id
  launches : ∀ attempt, .launch attempt ∈ after.queue → .launch attempt ∈ before.queue

theorem Aside.trans {first second third : Client σ} (h : Aside first second) (h' : Aside second third) :
    Aside first third where
  sessions := h'.sessions.trans h.sessions
  handed id := (h'.handed id).trans (h.handed id)
  launches attempt ha := h.launches attempt (h'.launches attempt ha)

/-- Something may be seen, but no message that is handed over. -/
theorem aside_of_history {before after : Client σ} {effects : List Effect} (sessions : after.sessions = before.sessions)
    (history : after.history = before.history ++ effects) (h : ∀ effect ∈ effects, ∀ id, effect.handed? id = none)
    (queue : after.queue = before.queue) : Aside before after where
  sessions := sessions
  handed id := by
    rw [handed, history, List.filterMap_append, List.filterMap_eq_nil_iff.2 fun effect he => h effect he id,
      List.append_nil, handed]
  launches attempt ha := queue ▸ ha

/-- A change of something else. -/
theorem aside_of_eq {before after : Client σ} (sessions : after.sessions = before.sessions)
    (history : after.history = before.history) (queue : after.queue = before.queue) : Aside before after :=
  aside_of_history sessions (history.trans (List.append_nil _).symm) nofun queue

theorem Aside.refl (client : Client σ) : Aside client client := aside_of_eq rfl rfl rfl

/-! ## Small changes -/

section Small

variable (client : Client σ)

theorem aside_note {effect : Effect} (h : ∀ id, effect.handed? id = none) : Aside client (client.note effect) :=
  aside_of_history rfl rfl (fun _ he id => List.mem_singleton.1 he ▸ h id) rfl

theorem aside_logAll (entries : Log) : Aside client (client.logAll entries) := by
  rw [logAll_eq]
  refine aside_of_history rfl rfl (fun effect he id => ?_) rfl
  obtain ⟨entry, -, rfl⟩ := List.mem_map.1 he
  rfl

theorem aside_log (entry : LogEntry) : Aside client (client.log entry) := client.aside_logAll [entry]

theorem aside_pushAll {turns : List Turn} (h : ∀ turn ∈ turns, turn.isCalm = true) :
    Aside client (client.pushAll turns) where
  sessions := rfl
  handed _ := rfl
  launches attempt ha := by
    rcases List.mem_append.1 ha with ha | ha
    · exact ha
    · exact absurd (h _ ha) Bool.false_ne_true

theorem aside_push {turn : Turn} (h : turn.isCalm = true) : Aside client (client.push turn) :=
  client.aside_pushAll fun t ht => by rw [List.mem_singleton.1 ht]; exact h

theorem aside_setPending (pending : Pending) : Aside client (client.setPending pending) := by
  have ha : Aside client { client with pending } := aside_of_eq rfl rfl rfl
  refine ha.trans (aside_pushAll _ fun turn ht => ?_)
  obtain ⟨index, -, rfl⟩ := List.mem_map.1 ht
  rfl

end Small

/-! ## Answers of the process layer -/

section Answers

variable (client : Client σ)

theorem aside_afterCall {α : Type} (step : LayerStep σ α) : Aside client (client.afterCall step).1 := by
  have ha : Aside client ({ client with layer := step.layer }.pushAll (step.deliveries.map .deliver)) := by
    have ha : Aside client { client with layer := step.layer } := aside_of_eq rfl rfl rfl
    refine ha.trans (aside_pushAll _ fun turn ht => ?_)
    obtain ⟨delivery, -, rfl⟩ := List.mem_map.1 ht
    rfl
  unfold afterCall
  cases step.reply with
  | waits => exact ha.trans (aside_of_eq rfl rfl rfl)
  | returns answer => exact ha
  | raises fault => exact ha

theorem aside_goOn (setup : Setup σ) (cancelled : Bool) (call : LayerCall) :
    Aside client (client.goOn setup cancelled call).1 := by
  unfold goOn
  split
  · exact .refl client
  · exact client.aside_afterCall _

end Answers

/-! ## Messages of servers -/

section Messages

variable {before after : Client σ}

theorem Told.aside {listeners : List Listener} {first second : Json} (h : Told listeners first second before after) :
    Aside before after := by
  obtain ⟨effects, hh, -, he⟩ := h.history
  refine aside_of_history (by rw [h.rest]) hh (fun effect hm id => ?_) h.queue
  rcases he effect hm with ht | hl
  · cases effect <;> first | rfl | cases ht
  · cases effect <;> first | rfl | cases hl

theorem Notified.aside {method : String} {params : Json} (h : Notified method params before after) :
    Aside before after := by
  obtain ⟨middle, htold, hpublished⟩ := h.told
  refine htold.aside.trans ?_
  cases hpublished with
  | diagnostics _ _ _ told => exact told.aside
  | malformed text _ _ => exact aside_log _ (.error text)
  | nothing _ => exact .refl _

theorem Answered.aside {id : RequestId} {outcome : Outcome} (h : Answered id outcome before after) :
    Aside before after := by
  obtain ⟨promises, entries, hrest⟩ := h.rest
  have hwake : Aside before ({ before with pending := after.pending }.pushAll
      (promises.map fun promise => .wake (.promise promise))) := by
    have ha : Aside before { before with pending := after.pending } := aside_of_eq rfl rfl rfl
    refine ha.trans (aside_pushAll _ fun turn ht => ?_)
    obtain ⟨promise, -, rfl⟩ := List.mem_map.1 ht
    rfl
  have hlog := aside_logAll ({ before with pending := after.pending }.pushAll
    (promises.map fun promise => .wake (.promise promise))) entries
  rw [logAll_eq] at hlog
  rw [hrest]
  exact hwake.trans hlog

/-- **A message of a server is aside.** -/
theorem aside_hear (client : Client σ) (delivery : Delivery) : Aside client (client.hear delivery) := by
  unfold hear
  split
  · unfold hear?
    cases Message.decode delivery.text with
    | error e =>
      cases e with
      | longInteger => exact .refl client
      | _ => exact client.aside_log _
    | ok message =>
      cases message with
      | notification method params id => exact (client.notified_hearNotification delivery.session method params).aside
      | response id result error =>
        cases error with
        | none => exact (client.answered_resolve id result).aside
        | some error => exact (client.answered_refuse id result error).aside
  · exact .refl client

end Messages

/-! ## Going on -/

end Client

/-- Whether an activity only waits for an answer: behind that it neither sends anything nor ends a session. -/
def Activity.onlyWaits : Activity → Bool
  | .joining _ | .connecting _ _ | .noticing _ _ | .requesting _ | .querying _ | .inspecting _ _
  | .downloading _ _ => true
  | .stopping _ | .stoppingAll _ | .closing _ _ | .arriving _ _ | .departing _ _ _ => false

namespace Client

section Resuming

variable (client : Client σ) (setup : Setup σ) (cancelled : Bool)

theorem aside_changeBinding (number : Nat) (f : Binding → Binding) : Aside client (client.changeBinding number f) :=
  aside_of_eq rfl rfl rfl

theorem aside_afterNotice (message : Outgoing) (sent : Progress Nat Unit) :
    Aside client (client.afterNotice message sent).1 := by
  unfold afterNotice
  split <;> exact .refl client

theorem aside_resumeNotice (phase : NoticePhase) : Aside client (client.resumeNotice setup cancelled phase).1 :=
  (client.aside_goOn setup cancelled phase.message.call).trans (aside_afterNotice _ _ _)

theorem aside_afterDocumentClose (path : String) (told : Progress NoticePhase Unit) :
    Aside client (client.afterDocumentClose path told).1 := by
  unfold afterDocumentClose
  split
  · exact .refl client
  · exact .refl client
  · split
    · exact client.aside_log _
    · exact .refl client

theorem aside_resumeDocumentClose (path : String) (phase : NoticePhase) :
    Aside client (client.resumeDocumentClose setup cancelled path phase).1 :=
  (client.aside_resumeNotice setup cancelled phase).trans (aside_afterDocumentClose _ _ _)

theorem aside_afterBindingOpen (number : Nat) (opened : Progress NoticePhase Unit) :
    Aside client (client.afterBindingOpen number opened).1 := by
  unfold afterBindingOpen
  split
  · exact client.aside_changeBinding number _
  · exact .refl client

theorem aside_afterBindingClose (number : Nat) (binding : Binding) (leaving : Bool)
    (closed : Progress NoticePhase Unit) : Aside client (client.afterBindingClose number binding leaving closed).1 := by
  unfold afterBindingClose
  split
  · dsimp only
    split
    · exact aside_of_eq rfl rfl rfl
    · exact client.aside_changeBinding number _
  · exact .refl client

theorem aside_resumeUse (phase : NoticePhase) (use : NoticeUse) :
    Aside client (client.resumeUse setup cancelled phase use).1 := by
  cases use with
  | plain => exact client.aside_resumeNotice setup cancelled phase
  | closing path => exact client.aside_resumeDocumentClose setup cancelled path phase
  | openingBinding number =>
    exact (client.aside_resumeNotice setup cancelled phase).trans (aside_afterBindingOpen _ _ _)
  | closingBinding number leaving =>
    unfold resumeUse
    dsimp only
    split
    · exact (client.aside_resumeDocumentClose setup cancelled _ phase).trans (aside_afterBindingClose _ _ _ _ _)
    · exact .refl client

theorem aside_awaitPromise (promise : Nat) : Aside client (client.awaitPromise promise).1 := by
  unfold awaitPromise
  split <;> exact .refl client

theorem aside_afterSend (id : RequestId) (promise : Nat) (message : Outgoing) (sent : Progress Nat Unit) :
    Aside client (client.afterSend id promise message sent).1 := by
  unfold afterSend
  split
  · exact .refl client
  · exact client.aside_awaitPromise promise
  · exact .refl client
  · exact ((client.aside_setPending _).trans (aside_logAll _ _)).trans (aside_awaitPromise _ promise)

theorem aside_resumeRequest (phase : RequestPhase) : Aside client (client.resumeRequest setup cancelled phase).1 := by
  cases phase with
  | sending ticket id promise message =>
    exact (client.aside_goOn setup cancelled message.call).trans (aside_afterSend _ _ _ _ _)
  | waiting promise =>
    unfold resumeRequest
    dsimp only
    split
    · exact .refl client
    · exact client.aside_awaitPromise promise

theorem aside_afterQuery (query : Query) (asked : Progress RequestPhase Json) :
    Aside client (client.afterQuery query asked).1 := by
  unfold afterQuery
  split
  · exact .refl client
  · split
    · exact .refl client
    · exact client.aside_logAll _

theorem aside_resumeJoin (phase : JoinPhase) : Aside client (client.resumeJoin cancelled phase).1 := by
  unfold resumeJoin
  split
  · exact .refl client
  · split <;> exact .refl client

theorem aside_afterConnect (number : Nat) (binding : Binding) (language : String) (started : Progress JoinPhase String) :
    Aside client (client.afterConnect number binding language started).1 := by
  unfold afterConnect
  split
  · exact .refl client
  · next session =>
    have hc : Aside client { client.changeBinding number fun binding => { binding with session := some session } with
        routes := client.routes.register binding.path ⟨session, language, binding.root⟩ } := aside_of_eq rfl rfl rfl
    exact hc.trans (aside_log _ _)
  · split
    · exact (client.aside_changeBinding number _).trans (aside_log _ _)
    · exact .refl client

/-- A step is aside, and what it may wait for then is an answer. -/
structure GoesAside (before : Client σ) (step : Client σ × Progress Activity Answer) : Prop where
  aside : Aside before step.1
  onlyWaits : ∀ activity, step.2 = .waits activity → activity.onlyWaits = true

theorem goesAside_waits {before client : Client σ} (ha : Aside before client) {activity : Activity}
    (hw : activity.onlyWaits = true) : GoesAside before (client, .waits activity) := by
  refine ⟨ha, fun activity h => ?_⟩
  cases h
  exact hw

theorem goesAside_ends {before client : Client σ} (ha : Aside before client) (outcome : Except Fault Answer) :
    GoesAside before (client, .ends outcome) := ⟨ha, fun _ h => nomatch h⟩

theorem goesAside_map {φ α : Type} {activity : φ → Activity} (hw : ∀ phase, (activity phase).onlyWaits = true)
    (g : α → Answer) {before : Client σ} {step : Client σ × Progress φ α} (ha : Aside before step.1) :
    GoesAside before (step.1, (step.2.inPhase activity).map g) := by
  obtain ⟨client, phase | outcome⟩ := step
  · exact goesAside_waits ha (hw phase)
  · exact goesAside_ends ha _

theorem goesAside_queried {before : Client σ} {step : Client σ × Progress QueryPhase Answer}
    (ha : Aside before step.1) : GoesAside before (queried step) := by
  obtain ⟨client, phase | outcome⟩ := step
  · exact goesAside_waits ha rfl
  · exact goesAside_ends ha outcome

theorem goesAside_afterServerInspection (language : String) {before : Client σ}
    {step : Client σ × Progress Nat Availability} (ha : Aside before step.1) :
    GoesAside before (step.1.afterServerInspection language step.2) := by
  obtain ⟨client, ticket | outcome⟩ := step
  · exact goesAside_waits ha rfl
  · exact goesAside_ends ha _

theorem goesAside_afterDownload (language : String) {before : Client σ} {step : Client σ × Progress Nat String}
    (ha : Aside before step.1) : GoesAside before (step.1.afterDownload language step.2) := by
  obtain ⟨client, ticket | fault | path⟩ := step
  · exact goesAside_waits ha rfl
  · exact goesAside_ends ha _
  · refine goesAside_ends (ha.trans ?_) _
    exact aside_of_eq rfl rfl rfl

/-- **An activity that only waits for an answer goes on aside.** -/
theorem aside_resumeActivity {activity : Activity} (h : activity.onlyWaits = true) :
    GoesAside client (client.resumeActivity setup cancelled activity) := by
  cases activity with
  | joining phase => exact goesAside_map (fun _ => rfl) _ (client.aside_resumeJoin cancelled phase)
  | connecting number phase =>
    dsimp only [resumeActivity, withBinding]
    split
    · exact goesAside_map (fun _ => rfl) _
        ((client.aside_resumeJoin cancelled phase).trans (aside_afterConnect _ _ _ _ _))
    · exact goesAside_ends (.refl client) _
  | noticing use phase => exact goesAside_map (fun _ => rfl) _ (client.aside_resumeUse setup cancelled phase use)
  | requesting phase => exact goesAside_map (fun _ => rfl) _ (client.aside_resumeRequest setup cancelled phase)
  | querying phase =>
    exact goesAside_queried ((client.aside_resumeRequest setup cancelled phase.request).trans (aside_afterQuery _ _ _))
  | inspecting ticket language => exact goesAside_afterServerInspection language (client.aside_goOn setup cancelled _)
  | downloading ticket language => exact goesAside_afterDownload language (client.aside_goOn setup cancelled _)
  | stopping _ | stoppingAll _ | closing _ _ | arriving _ _ | departing _ _ _ => cases h

end Resuming

end Client

end LanguageSessions
