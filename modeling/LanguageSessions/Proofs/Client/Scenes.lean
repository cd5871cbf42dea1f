import LanguageSessions.Client.Operation
import LanguageSessions.Proofs.Client.Statuses
import LanguageSessions.Proofs.Client.Steps

/-!
# Scenes

A scene is what the proofs about routes, bindings and the sessions of pending requests look at. It shows less of the
pending requests than an account does, and more of what somebody outside holds on to: the routes, the bindings and what
came of the starts.

Whatever a client does changes its scene by one `Change` after the other, within a warrant: it tells servers about some
documents and changes some bindings. `Makes` says of a step of a client that it makes such changes, and what it comes
to. A session that is taken out leaves no pending request behind, but those that were handed over while the stop of its
process was waited for (`LateIn`).
-/

namespace LanguageSessions

/-- The notice about a document that a letter is, if it is one. -/
def Letter.notice? : Letter → Option DocumentNotice
  | .own _ _ (.document notice) => some notice
  | _ => none

/-- Whether a letter is a notification that somebody had passed on. -/
def Letter.IsPassed : Letter → Prop
  | .own _ _ _ => False
  | .passed _ _ _ => True

/-! ## Scenes -/

/-- What there is to hold on to, and what was said to servers. -/
structure Scene where
  sessions : SessionRegistry
  /-- The requests that are pending. -/
  waiting : Entries RequestId PendingRequest
  routes : Routes
  bindings : List Binding
  /-- What came of each attempt to start a server, once it has ended. -/
  outcomes : List (Option (Except Fault String))
  calls : List LayerCall
  record : List Exchange
  letters : List Letter

/-- By a record, a request was handed over for a session behind a call to stop its process that did not return at
once. -/
def LateIn (record : List Exchange) (id : String) (request : RequestId) (method : String) : Prop :=
  ∃ front back, record = front ++ back ∧ ⟨.stop id, .waits⟩ ∈ front ∧
    ∃ params reply, ⟨.send id (Message.request request.toJson method params).print, reply⟩ ∈ back

namespace Scene

/-- A letter is handed over. -/
def handOver (scene : Scene) (letter : Letter) (reply : Reply Unit) : Scene :=
  { scene with
    calls := scene.calls ++ [letter.call]
    record := scene.record ++ [⟨letter.call, reply⟩]
    letters := scene.letters ++ [letter] }

/-- A session that is ready is registered under an identifier. -/
def Offers (scene : Scene) (id : String) : Prop :=
  ∃ number session, scene.sessions.Registered number session ∧ session.id = id ∧ session.stage = .ready

/-- A session with an identifier has come so far as to be ready, and perhaps further. -/
def Reached (scene : Scene) (id : String) : Prop :=
  ∃ number session, scene.sessions.session? number = some session ∧ session.id = id ∧
    SessionStage.ready.rank ≤ session.stage.rank

/-- A session with an identifier is ready. -/
def Attains (scene : Scene) (id : String) : Prop :=
  ∃ number session, scene.sessions.session? number = some session ∧ session.id = id ∧ session.stage = .ready

/-- The session with a number has an identifier. -/
def Bears (scene : Scene) (number : Nat) (id : String) : Prop :=
  ∃ session, scene.sessions.session? number = some session ∧ session.id = id

/-- All pending requests of a session are late. -/
def Overdue (scene : Scene) (id : String) : Prop :=
  ∀ request entry, (request, entry) ∈ scene.waiting → entry.session = some id →
    LateIn scene.record id request entry.method

/-- The process of a session is being stopped, and its pending requests were cancelled before. -/
structure Halted (scene : Scene) (id : String) : Prop where
  waited : ⟨.stop id, .waits⟩ ∈ scene.record
  overdue : scene.Overdue id

end Scene

/-! ## Changes -/

/-- What somebody who acts is free to do. -/
structure Warrant where
  /-- The documents that it tells servers about. -/
  tells : String → Prop
  /-- The notifications that it has passed on. -/
  passes : Letter → Prop
  /-- The bindings that it opens, closes or disconnects. -/
  binds : Nat → Prop
  /-- The bindings that it connects, and the sessions that it connects them to. -/
  connects : Nat → String → Prop
  /-- All the bindings there are once files were bound. -/
  rebinds : List Binding → Prop

/-- One thing that happens to a scene, within a warrant. -/
inductive Change (warrant : Warrant) : Scene → Scene → Prop
  /-- The process layer is called, and not to hand something over. -/
  | called {scene : Scene} (exchange : Exchange) (silent : exchange.call.sent? = none) :
      Change warrant scene
        { scene with calls := scene.calls ++ [exchange.call], record := scene.record ++ [exchange] }
  /-- A call of the process layer goes on. -/
  | wentOn {scene : Scene} (exchange : Exchange) :
      Change warrant scene { scene with record := scene.record ++ [exchange] }
  /-- Requests end. -/
  | settled {scene : Scene} {waiting : Entries RequestId PendingRequest}
      (fewer : ∀ entry ∈ waiting, entry ∈ scene.waiting) : Change warrant scene { scene with waiting }
  /-- Something is handed over that is neither a request nor about a document. -/
  | handed {scene : Scene} {letter : Letter} (reply : Reply Unit) (plain : letter.notice? = none)
      (passes : letter.IsPassed → warrant.passes letter) :
      Change warrant scene (scene.handOver letter reply)
  /-- A request is registered for a registered session, and handed over. -/
  | asked {scene : Scene} {letter : Letter} {request : RequestId} {entry : PendingRequest} {params : Json}
      (reply : Reply Unit) (plain : letter.notice? = none) (own : ¬ letter.IsPassed)
      (registered : scene.sessions.has letter.session = true) (owner : entry.session = some letter.session)
      (text : letter.text = (Message.request request.toJson entry.method params).print) :
      Change warrant scene ({ scene with waiting := scene.waiting.set request entry }.handOver letter reply)
  /-- A ready session takes a notice down, and it is handed over. -/
  | noticed {scene : Scene} {id : String} {number : Nat} {session : Session} {notice : DocumentNotice}
      (reply : Reply Unit) (listed : scene.sessions.number? id = some number)
      (found : scene.sessions.session? number = some session) (ready : session.stage = .ready)
      (tells : warrant.tells notice.uri) :
      Change warrant scene
        ({ scene with sessions := scene.sessions.modify number (·.takeDown notice) }.handOver
          (.own id number (.document notice)) reply)
  /-- A session is added that was told nothing yet. -/
  | enrolled {scene : Scene} {session : Session} (begins : session.stage = .initializing)
      (untold : session.versions = []) : Change warrant scene { scene with sessions := scene.sessions.add session }
  | advanced {scene : Scene} {number : Nat} {session : Session} {f : Session → Session}
      (found : scene.sessions.session? number = some session) (advances : session.Advances (f session))
      (versions : (f session).versions = session.versions) :
      Change warrant scene { scene with sessions := scene.sessions.modify number f }
  /-- A session is taken out, with all routes to it. -/
  | dropped {scene : Scene} {number : Nat} {session : Session}
      (found : scene.sessions.session? number = some session) (overdue : scene.Overdue session.id) :
      Change warrant scene
        { scene with
          routes := scene.routes.unregisterSession session.id
          sessions := (scene.sessions.remove session.id).modify number fun session =>
            { session with stage := .stopped } }
  /-- A binding is connected to a session that is ready, or was started. -/
  | connected {scene : Scene} {number : Nat} {id : String} (path language root : String)
      (connects : warrant.connects number id) (source : scene.Offers id ∨ some (.ok id) ∈ scene.outcomes) :
      Change warrant scene
        { scene with
          routes := scene.routes.register path ⟨id, language, root⟩
          bindings := scene.bindings.modify number fun binding => { binding with session := some id } }
  /-- A binding is disconnected. -/
  | left {scene : Scene} {number : Nat} (path : String) (binds : warrant.binds number) :
      Change warrant scene
        { scene with
          routes := scene.routes.unregister path
          bindings := scene.bindings.modify number fun binding => { binding with session := none } }
  | flagged {scene : Scene} {number : Nat} (isOpen : Bool) (binds : warrant.binds number) :
      Change warrant scene
        { scene with bindings := scene.bindings.modify number fun binding => { binding with isOpen } }
  | excused {scene : Scene} (number : Nat) (error : Option String) :
      Change warrant scene { scene with bindings := scene.bindings.modify number fun binding => { binding with error } }
  /-- All routes are dropped. -/
  | unrouted {scene : Scene} : Change warrant scene { scene with routes := Routes.empty }
  /-- An attempt is launched. -/
  | launched {scene : Scene} : Change warrant scene { scene with outcomes := scene.outcomes ++ [none] }

/-- Changes one after the other. -/
def Changes (warrant : Warrant) : Scene → Scene → Prop := Relation.ReflTransGen (Change warrant)

/-! ## What lasts through changes -/

section Lasting

variable {warrant : Warrant} {before after : Scene} {id : String} {number : Nat}

/-- A pending request that is late stays late. -/
theorem LateIn.later {record later : List Exchange} {request : RequestId} {method : String}
    (h : LateIn record id request method) (hr : record <+: later) : LateIn later id request method := by
  obtain ⟨front, back, hrecord, hstop, params, reply, hm⟩ := h
  obtain ⟨more, hmore⟩ := hr
  refine ⟨front, back ++ more, ?_, hstop, params, reply, List.mem_append_left _ hm⟩
  rw [← hmore, hrecord, List.append_assoc]

theorem Change.record (h : Change warrant before after) : before.record <+: after.record := by
  cases h <;> first | exact List.prefix_append _ _ | exact List.prefix_refl _

/-- What is pending afterwards was pending before, or was asked for just now. -/
theorem Change.waiting (h : Change warrant before after) {request : RequestId} {entry : PendingRequest}
    (hm : (request, entry) ∈ after.waiting) :
    (request, entry) ∈ before.waiting ∨
      ∃ id, entry.session = some id ∧ before.sessions.has id = true ∧ after.sessions = before.sessions ∧
        ∃ params reply, after.record =
          before.record ++ [⟨.send id (Message.request request.toJson entry.method params).print, reply⟩] := by
  cases h with
  | settled fewer => exact Or.inl (fewer _ hm)
  | @asked letter _ _ params reply plain own registered owner text =>
    rcases Entries.mem_set hm with hm | ⟨rfl, rfl⟩
    · exact Or.inl hm
    · refine Or.inr ⟨letter.session, owner, registered, rfl, params, reply, ?_⟩
      rw [← text]
      rfl
  | _ => exact Or.inl hm

/-- The stop of a process goes on while others act. -/
theorem Change.halted (h : Change warrant before after) (hh : before.Halted id) : after.Halted id where
  waited := h.record.subset hh.waited
  overdue request entry hm ho := by
    rcases h.waiting hm with hm | ⟨id', howner, -, -, params, reply, hrecord⟩
    · exact (hh.overdue request entry hm ho).later h.record
    · rw [ho] at howner
      cases howner
      exact ⟨before.record, _, hrecord, hh.waited, params, reply, List.mem_singleton_self _⟩

theorem Change.advances (h : Change warrant before after) : before.sessions.Advances after.sessions := by
  cases h with
  | noticed reply listed found ready tells =>
    exact SessionRegistry.advances_modify found ⟨rfl, rfl, rfl, Nat.le_refl _⟩
  | enrolled begins untold => exact SessionRegistry.advances_add _ _
  | advanced found advances versions => exact SessionRegistry.advances_modify found advances
  | @dropped number session found overdue =>
    have hremove := before.sessions.advances_remove session.id
    obtain ⟨session', found', -⟩ := hremove number session found
    exact hremove.trans (SessionRegistry.advances_modify found' ⟨rfl, rfl, rfl, session'.stage.rank_le_stopped⟩)
  | _ => exact .refl _

/-- What is handed over is not passed on, unless the warrant passes it on. -/
theorem Change.passed (h : Change warrant before after) {letter : Letter} (hm : letter ∈ after.letters)
    (hp : letter.IsPassed) : letter ∈ before.letters ∨ warrant.passes letter := by
  have hlast : ∀ {last : Letter}, letter ∈ before.letters ++ [last] → (last.IsPassed → warrant.passes last) →
      letter ∈ before.letters ∨ warrant.passes letter := by
    intro last hm passes
    rcases List.mem_append.1 hm with hm | hm
    · exact Or.inl hm
    · cases List.mem_singleton.1 hm
      exact Or.inr (passes hp)
  cases h with
  | handed reply plain passes => exact hlast hm passes
  | asked reply plain own registered owner text => exact hlast hm fun hp => absurd hp own
  | noticed reply listed found ready tells => exact hlast hm False.elim
  | _ => exact Or.inl hm

/-- A session that is registered stays so, unless it is taken out, with all routes to it and none but late requests. -/
theorem Change.has (h : Change warrant before after) (hh : before.sessions.has id = true) :
    after.sessions.has id = true ∨ before.Overdue id ∧
      ∃ sessions, after = { before with routes := before.routes.unregisterSession id, sessions } := by
  cases h with
  | @enrolled session begins untold =>
    left
    change ((before.sessions.numbers.set session.id before.sessions.sessions.length).get? id).isSome = true
    rw [Entries.get?_set]
    split
    · rfl
    · exact hh
  | @dropped number session found overdue =>
    by_cases hid : session.id = id
    · subst hid
      exact Or.inr ⟨overdue, _, rfl⟩
    · left
      change ((before.sessions.remove session.id).number? id).isSome = true
      rw [SessionRegistry.number?_remove, if_neg hid]
      exact hh
  | _ => exact Or.inl hh

/-- No attempt ends through a change. -/
theorem Change.outcomes (h : Change warrant before after) {outcome : Except Fault String}
    (hm : some outcome ∈ after.outcomes) : some outcome ∈ before.outcomes := by
  cases h with
  | launched =>
    rcases List.mem_append.1 hm with hm | hm
    · exact hm
    · cases List.mem_singleton.1 hm
  | _ => exact hm

theorem Changes.trans {middle : Scene} (h : Changes warrant before middle) (h' : Changes warrant middle after) :
    Changes warrant before after := Relation.ReflTransGen.trans h h'

theorem Changes.halted (h : Changes warrant before after) (hh : before.Halted id) : after.Halted id := by
  induction h with
  | refl => exact hh
  | tail _ last ih => exact last.halted ih

theorem Changes.advances (h : Changes warrant before after) : before.sessions.Advances after.sessions := by
  induction h with
  | refl => exact .refl _
  | tail _ last ih => exact ih.trans last.advances

theorem Changes.passed (h : Changes warrant before after) {letter : Letter} (hm : letter ∈ after.letters)
    (hp : letter.IsPassed) : letter ∈ before.letters ∨ warrant.passes letter := by
  induction h with
  | refl => exact Or.inl hm
  | tail _ last ih =>
    rcases last.passed hm hp with hm | passes
    · exact ih hm
    · exact Or.inr passes

theorem Changes.outcomes (h : Changes warrant before after) {outcome : Except Fault String}
    (hm : some outcome ∈ after.outcomes) : some outcome ∈ before.outcomes := by
  induction h with
  | refl => exact hm
  | tail _ last ih => exact ih (last.outcomes hm)

theorem Scene.Bears.advances (h : before.Bears number id) (ha : before.sessions.Advances after.sessions) :
    after.Bears number id := by
  obtain ⟨session, found, rfl⟩ := h
  obtain ⟨later, hl, hadvances⟩ := ha number session found
  exact ⟨later, hl, hadvances.id⟩

theorem Scene.Attains.reached {scene : Scene} {id : String} (h : scene.Attains id) : scene.Reached id := by
  obtain ⟨number, session, found, hid, ready⟩ := h
  exact ⟨number, session, found, hid, Nat.le_of_eq (by rw [ready])⟩

theorem Scene.Reached.advances (h : before.Reached id) (ha : before.sessions.Advances after.sessions) :
    after.Reached id := by
  obtain ⟨number, session, found, rfl, hrank⟩ := h
  obtain ⟨later, hl, hadvances⟩ := ha number session found
  exact ⟨number, later, hl, hadvances.id, Nat.le_trans hrank hadvances.stage⟩

end Lasting

namespace Client

variable {σ φ ψ α β : Type}

/-- The scene of a client whose layer keeps a record. -/
def scene (client : Client (σ × List Exchange)) (letters : List Letter) : Scene where
  sessions := client.sessions
  waiting := client.pending.entries
  routes := client.routes
  bindings := client.bindings
  outcomes := client.attempts.map (·.outcome)
  calls := client.history.filterMap Effect.called?
  record := client.layer.2
  letters

/-! ## Steps -/

/-- Changes lead from a scene to that of the client behind a step, and the step comes to what it should. -/
def Makes (warrant : Warrant) (origin : Scene) (post : Scene → Progress φ α → Prop)
    (step : Client (σ × List Exchange) × Progress φ α) : Prop :=
  ∃ letters, Changes warrant origin (step.1.scene letters) ∧ post (step.1.scene letters) step.2

/-- A step that may come to anything. -/
def Whatever (_ : Scene) (_ : Progress φ α) : Prop := True

/-- The scene of two clients is the same. -/
def Unseen (before after : Client (σ × List Exchange)) : Prop :=
  ∀ letters, after.scene letters = before.scene letters

section Rules

variable {warrant : Warrant} {origin : Scene} {post : Scene → Progress φ α → Prop} {post' : Scene → Progress ψ β → Prop}
  {step : Client (σ × List Exchange) × Progress φ α} {client first second third : Client (σ × List Exchange)}
  {letters : List Letter}

/-- Nothing is done that the scene shows. -/
theorem makes_nothing {progress : Progress φ α} (hs : client.scene letters = origin) (hp : post origin progress) :
    Makes warrant origin post (client, progress) := ⟨letters, by rw [hs]; exact .refl, by rw [hs]; exact hp⟩

/-- One thing happens. -/
theorem makes_change {progress : Progress φ α} (h : Change warrant origin (client.scene letters))
    (hp : post (client.scene letters) progress) : Makes warrant origin post (client, progress) :=
  ⟨letters, .single h, hp⟩

/-- Something happened before. -/
theorem Makes.after {middle : Scene} (d : Changes warrant origin middle) (h : Makes warrant middle post step) :
    Makes warrant origin post step := by
  obtain ⟨letters, d', hp⟩ := h
  exact ⟨letters, d.trans d', hp⟩

/-- One step and then another. -/
theorem Makes.andThen {next : Client (σ × List Exchange) × Progress ψ β} (h : Makes warrant origin post step)
    (hn : ∀ letters, Changes warrant origin (step.1.scene letters) → post (step.1.scene letters) step.2 →
      Makes warrant (step.1.scene letters) post' next) : Makes warrant origin post' next := by
  obtain ⟨letters, d, hp⟩ := h
  exact (hn letters d hp).after d

/-- The phase and what is given back may be put in other words. -/
theorem Makes.translate {f : φ → ψ} {g : α → β} (h : Makes warrant origin post step)
    (hw : ∀ scene phase, step.2 = .waits phase → post scene (.waits phase) → post' scene (.waits (f phase)))
    (he : ∀ scene outcome, step.2 = .ends outcome → post scene (.ends outcome) →
      post' scene (.ends (outcome.map g))) :
    Makes warrant origin post' (step.1, (step.2.inPhase f).map g) := by
  obtain ⟨letters, d, hp⟩ := h
  obtain ⟨client, phase | outcome⟩ := step
  · exact ⟨letters, d, hw _ phase rfl hp⟩
  · exact ⟨letters, d, he _ outcome rfl hp⟩

theorem Unseen.refl (client : Client (σ × List Exchange)) : Unseen client client := fun _ => rfl

theorem Unseen.trans (h : Unseen first second) (h' : Unseen second third) : Unseen first third :=
  fun letters => (h' letters).trans (h letters)

/-- Something that is not seen comes before a step. -/
theorem Unseen.makes (hu : Unseen first second) (h : Makes warrant (second.scene letters) post step) :
    Makes warrant (first.scene letters) post step := by
  rw [hu] at h
  exact h

/-- Something that is not seen comes after a step. -/
theorem Makes.follow {next : Client (σ × List Exchange) × Progress ψ β} (h : Makes warrant origin post step)
    (hu : Unseen step.1 next.1) : Makes warrant origin Whatever next := by
  obtain ⟨letters, d, -⟩ := h
  refine ⟨letters, ?_, trivial⟩
  rw [hu]
  exact d

/-- A step that is not seen. -/
theorem Unseen.whatever (hu : Unseen first step.1) : Makes warrant (first.scene letters) Whatever step :=
  makes_nothing (hu letters) trivial

end Rules

/-! ## What is not seen -/

section Unseen

variable (client : Client (σ × List Exchange))

theorem unseen_note {effect : Effect} (h : effect.called? = none) : Unseen client (client.note effect) := by
  intro letters
  simp [scene, note, h]

theorem unseen_logAll (entries : Log) : Unseen client (client.logAll entries) := by
  induction entries generalizing client with
  | nil => exact .refl client
  | cons entry entries ih => exact (client.unseen_note rfl).trans (ih (client.log entry))

theorem unseen_log (entry : LogEntry) : Unseen client (client.log entry) := client.unseen_note rfl

/-- The pending requests change, but none is registered or ends. -/
theorem unseen_setPending {pending : Pending} (h : pending.entries = client.pending.entries) :
    Unseen client (client.setPending pending) := by
  intro letters
  simp [scene, setPending, pushAll, h]

end Unseen

/-- What a session remembers changes, but not its versions, or it advances. -/
theorem changes_changeSession {warrant : Warrant} (client : Client (σ × List Exchange)) (letters : List Letter)
    (number : Nat) {f : Session → Session}
    (same : ∀ session : Session, session.Advances (f session) ∧ (f session).versions = session.versions) :
    Changes warrant (client.scene letters) ((client.changeSession number f).scene letters) := by
  cases found : client.sessions.session? number with
  | some session => exact .single (.advanced found (same session).1 (same session).2)
  | none =>
    -- There is no such session.
    have hmodify : client.sessions.modify number f = client.sessions := by
      have hlength := List.getElem?_eq_none_iff.1 found
      rw [SessionRegistry.modify, List.modify_eq_self hlength]
    rw [changeSession, hmodify]
    exact .refl

/-! ## Calling the process layer -/

section Calls

variable {warrant : Warrant} (client : Client (σ × List Exchange)) (setup : Setup σ) (letters : List Letter)

/-- The reply of a step is put on record. -/
theorem scene_afterCall {call : LayerCall} (step : LayerStep σ call.Answer) :
    (client.afterCall (step.recorded client.layer.2)).1.scene letters =
      { client.scene letters with record := client.layer.2 ++ [⟨call, step.reply⟩] } := by
  unfold afterCall LayerStep.recorded
  cases step.reply <;> rfl

/-- A call that waits was replied to so. -/
theorem reply_of_waits {call : LayerCall} {step : LayerStep σ call.Answer} {ticket : Nat}
    (h : (client.afterCall (step.recorded client.layer.2)).2 = .waits ticket) : step.reply = .waits := by
  unfold afterCall LayerStep.recorded at h
  cases hr : step.reply <;> simp only [hr] at h <;> cases h
  rfl

/-- The layer is called: the call is seen, and the reply is on record. -/
theorem scene_ask (call : LayerCall) :
    ∃ reply, (client.ask setup.recorded call).1.scene letters =
        { client.scene letters with
          calls := (client.scene letters).calls ++ [call]
          record := (client.scene letters).record ++ [⟨call, reply⟩] } ∧
      ∀ ticket, (client.ask setup.recorded call).2 = .waits ticket → reply = .waits := by
  refine ⟨(setup.layer.call client.layer.1 client.tickets call).reply, ?_, fun ticket hw => ?_⟩
  · refine ((client.note (.called call)).scene_afterCall letters
      (setup.layer.call client.layer.1 client.tickets call)).trans ?_
    rw [scene, note, List.filterMap_append]
    rfl
  · exact (client.note (.called call)).reply_of_waits hw

/-- The layer is called, and not to hand something over. -/
theorem makes_ask (call : LayerCall) (silent : call.sent? = none) :
    Makes warrant (client.scene letters)
      (fun scene progress => scene.sessions = client.sessions ∧ scene.waiting = client.pending.entries ∧
        ∀ ticket, progress = .waits ticket → ⟨call, .waits⟩ ∈ scene.record)
      (client.ask setup.recorded call) := by
  obtain ⟨reply, hs, hw⟩ := client.scene_ask setup letters call
  refine ⟨letters, ?_, ?_⟩
  · rw [hs]
    exact .single (.called ⟨call, reply⟩ silent)
  · rw [hs]
    refine ⟨rfl, rfl, fun ticket hwaits => ?_⟩
    rw [hw ticket hwaits]
    exact List.mem_append_right _ (List.mem_singleton_self _)

/-- A call goes on. -/
theorem makes_goOn (cancelled : Bool) (call : LayerCall) :
    Makes warrant (client.scene letters) Whatever (client.goOn setup.recorded cancelled call) := by
  unfold goOn
  split
  · exact makes_nothing rfl trivial
  · refine ⟨letters, ?_, trivial⟩
    have hs := client.scene_afterCall letters (setup.layer.resume client.layer.1 client.tickets call)
    exact Eq.subst (motive := Changes warrant _) hs.symm (.single (.wentOn _))

/-- A letter is handed over. -/
theorem scene_ask_letter (letter : Letter) :
    ∃ reply, (client.ask setup.recorded letter.call).1.scene (letters ++ [letter]) =
      (client.scene letters).handOver letter reply := by
  obtain ⟨reply, hs, -⟩ := client.scene_ask setup (letters ++ [letter]) letter.call
  exact ⟨reply, hs⟩

end Calls

/-! ## Notifications -/

section Notices

variable {warrant : Warrant} (client : Client (σ × List Exchange)) (setup : Setup σ) (letters : List Letter)

theorem unseen_afterNotice (message : Outgoing) (sent : Progress Nat Unit) :
    Unseen client (client.afterNotice message sent).1 := by
  rw [afterNotice_fst]
  exact .refl client

/-- A notification is sent as a letter. -/
theorem scene_notify (letter : Letter) {session method : String} {params : Json} (hs : session = letter.session)
    (ht : (Message.notice method params).print = letter.text) :
    ∃ reply, (client.notify setup.recorded session method params).1.scene (letters ++ [letter]) =
      (client.scene letters).handOver letter reply := by
  obtain ⟨reply, ha⟩ := client.scene_ask_letter setup letters letter
  subst hs
  unfold notify
  rw [ht]
  exact ⟨reply, (unseen_afterNotice _ _ _ _).trans ha⟩

/-- A notification is sent that is not about a document. -/
theorem makes_notify (letter : Letter) {session method : String} {params : Json} (hs : session = letter.session)
    (ht : (Message.notice method params).print = letter.text) (plain : letter.notice? = none)
    (passes : letter.IsPassed → warrant.passes letter) :
    Makes warrant (client.scene letters) Whatever (client.notify setup.recorded session method params) := by
  obtain ⟨reply, ha⟩ := client.scene_notify setup letters letter hs ht
  refine ⟨letters ++ [letter], ?_, trivial⟩
  rw [ha]
  exact .single (.handed reply plain passes)

theorem makes_notifyIfPrintable (letter : Letter) {session method : String} {params : Json}
    (hs : session = letter.session) (ht : (Message.notice method params).print = letter.text)
    (plain : letter.notice? = none) (passes : letter.IsPassed → warrant.passes letter) :
    Makes warrant (client.scene letters) Whatever
      (client.notifyIfPrintable setup.recorded session method params) := by
  unfold notifyIfPrintable
  split
  · exact client.makes_notify setup letters letter hs ht plain passes
  · exact makes_nothing rfl trivial

theorem makes_resumeNotice (cancelled : Bool) (phase : NoticePhase) :
    Makes warrant (client.scene letters) Whatever (client.resumeNotice setup.recorded cancelled phase) :=
  (client.makes_goOn setup letters cancelled phase.message.call).follow (unseen_afterNotice _ _ _)

end Notices

/-! ## Requests -/

section Requests

variable {warrant : Warrant} (client : Client (σ × List Exchange)) (setup : Setup σ) (letters : List Letter)

theorem unseen_awaitPromise (promise : Nat) : Unseen client (client.awaitPromise promise).1 := by
  unfold awaitPromise
  split <;> exact .refl client

/-- A request ends, if it is pending. -/
theorem change_reject (id : RequestId) (fault : Fault) (entries : Log) :
    Change warrant (client.scene letters)
      (((client.setPending (client.pending.reject id fault).1).logAll entries).scene letters) := by
  rw [unseen_logAll]
  refine .settled fun entry hm => ?_
  change entry ∈ (client.pending.reject id fault).1.entries at hm
  rw [Pending.reject_fst, Pending.entries_finish, Entries.erase_eq_filter] at hm
  exact List.mem_of_mem_filter hm

/-- A request was handed over, or not. -/
theorem makes_afterSend (id : RequestId) (promise : Nat) (message : Outgoing) (sent : Progress Nat Unit) :
    Makes warrant (client.scene letters) Whatever (client.afterSend id promise message sent) := by
  unfold afterSend
  split
  · exact makes_nothing rfl trivial
  · exact (unseen_awaitPromise _ _).whatever
  · exact makes_nothing rfl trivial
  · exact (unseen_awaitPromise _ _).whatever.after (.single (client.change_reject letters id _ _))

/-- A request is registered and handed over, unless its session is not registered. -/
theorem makes_request (letter : RequestId → Letter) {session method : String} {params : Json} (delay : Option Binary64)
    (hs : ∀ id, (letter id).session = session)
    (ht : ∀ id, (letter id).text = (Message.request id.toJson method params).print)
    (plain : ∀ id, (letter id).notice? = none) (own : ∀ id, ¬ (letter id).IsPassed) :
    Makes warrant (client.scene letters) Whatever (client.request setup.recorded session method params delay) := by
  unfold request
  split
  · exact makes_nothing rfl trivial
  · next hreg =>
    have hregistered : client.sessions.has session = true := by simpa using hreg
    dsimp only
    split
    · exact makes_nothing rfl trivial
    · next pending promise heq =>
      obtain ⟨timer, hentries⟩ := Pending.entries_register heq
      let key := client.pending.nextId.2
      let client' : Client (σ × List Exchange) := { client with pending }
      obtain ⟨reply, ha⟩ := client'.scene_ask_letter setup letters (letter key)
      have hscene : client'.scene letters =
          { client.scene letters with
            waiting := (client.scene letters).waiting.set key ⟨method, some session, promise, timer⟩ } := by
        rw [scene, hentries]
        rfl
      have hcall : (letter key).call = .send session (Message.request key.toJson method params).print := by
        rw [Letter.call, hs, ht]
      have hchange : Change warrant (client.scene letters)
          ((client'.ask setup.recorded (letter key).call).1.scene (letters ++ [letter key])) := by
        rw [ha, hscene]
        exact .asked reply (plain key) (own key) ((hs key).symm ▸ hregistered) (congrArg some (hs key).symm) (ht key)
      rw [hcall] at hchange
      exact (makes_afterSend _ _ _ _ _ _).after (.single hchange)

theorem makes_requestIfPrintable (letter : RequestId → Letter) {session method : String} {params : Json}
    (delay : Option Binary64) (hs : ∀ id, (letter id).session = session)
    (ht : ∀ id, (letter id).text = (Message.request id.toJson method params).print)
    (plain : ∀ id, (letter id).notice? = none) (own : ∀ id, ¬ (letter id).IsPassed) :
    Makes warrant (client.scene letters) Whatever
      (client.requestIfPrintable setup.recorded session method params delay) := by
  unfold requestIfPrintable
  split
  · exact makes_nothing rfl trivial
  · exact client.makes_request setup letters letter delay hs ht plain own

/-- A request goes on. -/
theorem makes_resumeRequest (cancelled : Bool) (phase : RequestPhase) :
    Makes warrant (client.scene letters) Whatever (client.resumeRequest setup.recorded cancelled phase) := by
  cases phase with
  | sending ticket key promise message =>
    exact (client.makes_goOn setup letters cancelled message.call).andThen fun letters' _ _ =>
      makes_afterSend _ letters' key promise message _
  | waiting promise =>
    unfold resumeRequest
    dsimp only
    split
    · exact makes_nothing rfl trivial
    · exact (client.unseen_awaitPromise promise).whatever

end Requests

end Client

end LanguageSessions
