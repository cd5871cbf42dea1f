import LanguageSessions.Proofs.Client.Farewells
import LanguageSessions.Proofs.Client.Operation
import LanguageSessions.Proofs.Pending.Apart

/-!
# Promises that are waited for

Whoever waits for the response to a request waits for a promise, or will do so once the request was handed over
(`Activity.promise?`, `AttemptPhase.promise?`). In no step of a client is another promise taken over: the one that is
waited for behind the step is the one before it, or a new one (`Engages`). And no step cancels a promise, or gives one
an outcome without a turn for whoever waits for it (`Keeps`).
-/

namespace LanguageSessions

/-! ## The promise of a phase -/

/-- The promise of a request. -/
def RequestPhase.promise? : RequestPhase → Option Nat
  | .sending _ _ promise _ | .waiting promise => some promise

/-- The promise of a query. -/
def QueryPhase.promise? (phase : QueryPhase) : Option Nat := phase.request.promise?

/-- The promise that a handshake waits for. -/
def HandshakePhase.promise? : HandshakePhase → Option Nat
  | .asking request => request.promise?
  | .telling _ | .configuring _ => none

/-- The promise that an attempt waits for. -/
def AttemptPhase.promise? : AttemptPhase → Option Nat
  | .shaking _ handshake => handshake.promise?
  | _ => none

/-- The promise that the stop of a session waits for. -/
def StopPhase.promise? : StopPhase → Option Nat
  | .asking _ request => request.promise?
  | .telling _ _ | .discarding _ _ => none

/-- The promise that the stop of several sessions waits for. -/
def StopAllPhase.promise? (phase : StopAllPhase) : Option Nat := phase.current.promise?

/-- The promise that the closing of a client waits for. -/
def ClosePhase.promise? : ClosePhase → Option Nat
  | .stopping phase => phase.promise?
  | .gathering _ _ => none

/-- The promise that an activity waits for. -/
def Activity.promise? : Activity → Option Nat
  | .stopping phase => phase.promise?
  | .stoppingAll phase => phase.promise?
  | .closing _ phase | .departing _ _ phase => phase.promise?
  | .requesting phase => phase.promise?
  | .querying phase => phase.promise?
  | _ => none

section Signals

variable {index : Nat}

theorem RequestPhase.promise?_of_signal {phase : RequestPhase} (h : phase.signal = .promise index) :
    phase.promise? = some index := by
  cases phase <;> cases h
  rfl

theorem StopPhase.promise?_of_signal {phase : StopPhase} (h : phase.signal = .promise index) :
    phase.promise? = some index := by
  cases phase with
  | asking number request => exact request.promise?_of_signal h
  | telling number notice => cases h
  | discarding number ticket => cases h

theorem ClosePhase.promise?_of_signal {phase : ClosePhase} (h : phase.signal = .promise index) :
    phase.promise? = some index := by
  cases phase with
  | stopping phase => exact phase.current.promise?_of_signal h
  | gathering ticket attempts => cases h

/-- An activity that waits for a promise to be settled has that promise. -/
theorem Activity.promise?_of_signal {activity : Activity} (h : activity.signal = .promise index) :
    activity.promise? = some index := by
  cases activity with
  | stopping phase => exact phase.promise?_of_signal h
  | stoppingAll phase => exact phase.current.promise?_of_signal h
  | closing scope phase => exact phase.promise?_of_signal h
  | departing scope started phase => exact phase.promise?_of_signal h
  | requesting phase => exact phase.promise?_of_signal h
  | querying phase => exact phase.request.promise?_of_signal h
  | _ => cases h

/-- An attempt that waits for a promise to be settled has that promise. -/
theorem AttemptPhase.promise?_of_signal {phase : AttemptPhase} (h : phase.signal = .promise index) :
    phase.promise? = some index := by
  cases phase with
  | shaking number handshake =>
    cases handshake with
    | asking request => exact request.promise?_of_signal h
    | telling notice => cases h
    | configuring notice => cases h
  | _ => cases h

end Signals

namespace Client

variable {σ φ ψ α β : Type}

/-! ## Turns for those who wait -/

/-- No turn to come is lost. No promises are cancelled but of those who quit, and where a promise gets an outcome there
is a turn to come for whoever waits for it. -/
structure Keeps (quits : Nat → Prop) (before after : Client σ) : Prop where
  lasts : before.pending.Lasts quits after.pending
  turns : before.queue <+: after.queue
  tickets : before.tickets ≤ after.tickets
  rouses : ∀ index, before.pending.outcome? index = none → after.pending.outcome? index ≠ none →
    .wake (.promise index) ∈ after.queue

section Keeping

variable {quits more : Nat → Prop} {first second third client : Client σ}

/-- The pending requests are as they were. -/
theorem keeps_of_pending (hp : second.pending = first.pending) (turns : first.queue <+: second.queue)
    (tickets : first.tickets ≤ second.tickets) : Keeps quits first second where
  lasts := hp ▸ .refl _
  turns := turns
  tickets := tickets
  rouses _ hn hs := absurd hn (hp ▸ hs)

theorem keeps_of_eq (hp : second.pending = first.pending) (hq : second.queue = first.queue)
    (ht : second.tickets = first.tickets) : Keeps quits first second :=
  keeps_of_pending hp (hq ▸ List.prefix_refl _) (Nat.le_of_eq ht.symm)

theorem Keeps.refl (client : Client σ) : Keeps quits client client := keeps_of_eq rfl rfl rfl

theorem Keeps.trans (h : Keeps quits first second) (h' : Keeps quits second third) : Keeps quits first third where
  lasts := h.lasts.trans h'.lasts
  turns := h.turns.trans h'.turns
  tickets := Nat.le_trans h.tickets h'.tickets
  rouses index hn hs := by
    by_cases hm : second.pending.outcome? index = none
    · exact h'.rouses index hm hs
    · exact h'.turns.subset (h.rouses index hn hm)

theorem Keeps.weaken (h : Keeps quits first second) (hq : ∀ index, quits index → more index) :
    Keeps more first second := ⟨h.lasts.weaken hq, h.turns, h.tickets, h.rouses⟩

theorem Calm.keeps (h : Calm first second) (hp : second.pending = first.pending) : Keeps quits first second :=
  keeps_of_pending hp h.order h.tickets

theorem Proceeds.keeps {signal : φ → Signal} {step : Client σ × Progress φ α} (h : Proceeds signal first step)
    (hp : step.1.pending = first.pending) : Keeps quits first step.1 := h.calm.keeps hp

theorem Advances.keeps {signal : φ → Signal} {old : Option Signal} {step : Client σ × Progress φ α}
    (h : Advances signal old first step) (hp : step.1.pending = first.pending) : Keeps quits first step.1 := by
  rcases h.change with calm | ⟨-, key, launches⟩
  · exact calm.keeps hp
  · exact keeps_of_pending hp (launches.queue ▸ List.prefix_append _ _) launches.tickets

/-- The pending requests change in a way that cancels no promises but of those who quit. -/
theorem keeps_setPending {pending : Pending} (h : client.pending.Lasts quits pending) :
    Keeps quits client (client.setPending pending) where
  lasts := h
  turns := List.prefix_append _ _
  tickets := Nat.le_refl _
  rouses index hn hs := by
    refine List.mem_append_right _ (List.mem_map_of_mem (List.mem_filter.2 ⟨List.mem_range.2 ?_, ?_⟩))
    · by_contra hle
      exact hs (by rw [setPending, pushAll, Pending.outcome?, List.getElem?_eq_none (Nat.le_of_not_lt hle)]; rfl)
    · have hs : pending.outcome? index ≠ none := hs
      rw [hn]
      exact Option.isSome_iff_ne_none.2 hs

/-- A request is registered. -/
theorem keeps_enter (client : Client σ) (method : String) (delay : Option Binary64) (session : Option String) :
    Keeps quits client
      { client with pending := client.pending.nextId.1.enter client.pending.nextId.2 method delay session } where
  lasts := client.pending.lasts_enter method delay session
  turns := List.prefix_refl _
  tickets := Nat.le_refl _
  rouses index hn hs := by
    refine absurd ?_ hs
    change ((client.pending.promises ++ [⟨client.pending.nextId.2, none⟩])[index]?).bind (·.outcome) = none
    rw [List.getElem?_append]
    split
    · exact hn
    · cases hg : [(⟨client.pending.nextId.2, none⟩ : Promise)][index - client.pending.promises.length]? with
      | none => rfl
      | some promise => cases List.mem_singleton.1 (List.mem_of_getElem? hg); rfl

end Keeping

/-! ## Steps that take over no promise -/

/-- A step keeps promises; one that it waits for is its own or a new one. -/
structure Engages (promise? : φ → Option Nat) (own : Option Nat) (before : Client σ) (step : Client σ × Progress φ α) :
    Prop where
  keeps : Keeps (fun _ => False) before step.1
  taken : ∀ phase promise, step.2 = .waits phase → promise? phase = some promise →
    own = some promise ∨ before.pending.promises.length ≤ promise ∧ promise < step.1.pending.promises.length

section Rules

variable {promise? : φ → Option Nat} {promise?' : ψ → Option Nat} {own : Option Nat} {before client : Client σ}
  {step : Client σ × Progress φ α}

theorem Engages.ends (h : Keeps (fun _ => False) before client) (outcome : Except Fault α) :
    Engages promise? own before (client, .ends outcome) := ⟨h, nofun⟩

/-- To wait in another phase for the same promise. -/
theorem Engages.waits {phase : φ} {phase' : ψ}
    (h : Engages promise? own before ((client, .waits phase) : Client σ × Progress φ α))
    (hp : promise?' phase' = promise? phase) :
    Engages promise?' own before ((client, .waits phase') : Client σ × Progress ψ β) :=
  ⟨h.keeps, fun _ promise hw hs => by cases hw; exact h.taken phase promise rfl (hp ▸ hs)⟩

/-- To wait for no promise. -/
theorem engages_waits {phase : φ} (h : Keeps (fun _ => False) before client)
    (hn : promise? phase = none) : Engages promise? own before ((client, .waits phase) : Client σ × Progress φ α) :=
  ⟨h, fun _ promise hw hs => by cases hw; cases hn.symm.trans hs⟩

theorem Engages.after (h : Engages promise? own client step) (hk : Keeps (fun _ => False) before client) :
    Engages promise? own before step where
  keeps := hk.trans h.keeps
  taken phase promise hw hs :=
    (h.taken phase promise hw hs).imp_right fun hf => ⟨Nat.le_trans hk.lasts.length hf.1, hf.2⟩

/-- A promise that is new is anybody's. -/
theorem Engages.anew {index : Nat} (h : Engages promise? (some index) client step)
    (hk : Keeps (fun _ => False) before client) (hle : before.pending.promises.length ≤ index)
    (hlt : index < client.pending.promises.length) : Engages promise? own before step where
  keeps := hk.trans h.keeps
  taken phase promise hw hs := by
    rcases h.taken phase promise hw hs with heq | ⟨hle', hlt'⟩
    · cases heq
      exact Or.inr ⟨hle, Nat.lt_of_lt_of_le hlt h.keeps.lasts.length⟩
    · exact Or.inr ⟨Nat.le_trans hk.lasts.length hle', hlt'⟩

/-- The phase and what is given back may be put in other words. -/
theorem Engages.translate {f : φ → ψ} {g : α → β} (h : Engages promise? own before step)
    (hp : ∀ phase, promise?' (f phase) = promise? phase) :
    Engages promise?' own before (step.1, (step.2.inPhase f).map g) := by
  obtain ⟨client, progress⟩ := step
  cases progress with
  | waits phase => exact h.waits (hp phase)
  | ends outcome => exact .ends h.keeps _

end Rules

/-! ## What leaves the pending requests alone -/

section Alone

variable (client : Client (σ × List Exchange)) (setup : Setup σ)

theorem Accords.pending {before after : Client (σ × List Exchange)} (h : Accords before after) :
    after.pending = before.pending := congrArg Account.pending (h [])

theorem pending_afterCall (step : LayerStep σ α) (client : Client σ) :
    (client.afterCall step).1.pending = client.pending := by
  unfold afterCall
  cases step.reply <;> rfl

theorem pending_ask (call : LayerCall) : (client.ask setup.recorded call).1.pending = client.pending :=
  pending_afterCall _ _

theorem pending_goOn (cancelled : Bool) (call : LayerCall) :
    (client.goOn setup.recorded cancelled call).1.pending = client.pending := by
  unfold goOn
  split
  · rfl
  · exact pending_afterCall _ _

theorem keeps_log {quits : Nat → Prop} (entry : LogEntry) : Keeps quits client (client.log entry) :=
  (client.calm_log entry).keeps rfl

theorem keeps_logAll {quits : Nat → Prop} (entries : Log) : Keeps quits client (client.logAll entries) :=
  (client.calm_logAll entries).keeps (accords_logAll client entries).pending

theorem keeps_ask {quits : Nat → Prop} (call : LayerCall) : Keeps quits client (client.ask setup.recorded call).1 :=
  (client.proceeds_ask setup.recorded call).keeps (client.pending_ask setup call)

theorem keeps_goOn {quits : Nat → Prop} (cancelled : Bool) (call : LayerCall) :
    Keeps quits client (client.goOn setup.recorded cancelled call).1 :=
  (client.proceeds_goOn setup.recorded cancelled call).keeps (client.pending_goOn setup cancelled call)

theorem pending_notify (session method : String) (params : Json) :
    (client.notify setup.recorded session method params).1.pending = client.pending := by
  unfold notify
  exact (congrArg Client.pending (afterNotice_fst _ _ _)).trans (client.pending_ask setup _)

theorem pending_notifyIfPrintable (session method : String) (params : Json) :
    (client.notifyIfPrintable setup.recorded session method params).1.pending = client.pending := by
  unfold notifyIfPrintable
  split
  · exact client.pending_notify setup session method params
  · rfl

theorem pending_resumeNotice (cancelled : Bool) (phase : NoticePhase) :
    (client.resumeNotice setup.recorded cancelled phase).1.pending = client.pending := by
  unfold resumeNotice
  exact (congrArg Client.pending (afterNotice_fst _ _ _)).trans (client.pending_goOn setup cancelled _)

theorem keeps_notify {quits : Nat → Prop} (session method : String) (params : Json) :
    Keeps quits client (client.notify setup.recorded session method params).1 :=
  (client.proceeds_notify setup.recorded session method params).keeps
    (client.pending_notify setup session method params)

theorem keeps_notifyIfPrintable {quits : Nat → Prop} (session method : String) (params : Json) :
    Keeps quits client (client.notifyIfPrintable setup.recorded session method params).1 :=
  (client.proceeds_notifyIfPrintable setup.recorded session method params).keeps
    (client.pending_notifyIfPrintable setup session method params)

theorem keeps_resumeNotice {quits : Nat → Prop} (cancelled : Bool) (phase : NoticePhase) :
    Keeps quits client (client.resumeNotice setup.recorded cancelled phase).1 :=
  (client.proceeds_resumeNotice setup.recorded cancelled phase).keeps
    (client.pending_resumeNotice setup cancelled phase)

theorem pending_openDocument (id path language text : String) :
    (client.openDocument setup.recorded id path language text).1.pending = client.pending := by
  unfold openDocument
  split
  · rfl
  · exact pending_notify _ setup id _ _

theorem pending_changeDocument (id path text : String) :
    (client.changeDocument setup.recorded id path text).1.pending = client.pending := by
  unfold changeDocument
  split
  · rfl
  · dsimp only
    rw [pending_notify]
    split <;> rfl

theorem pending_closeDocument (id path : String) :
    (client.closeDocument setup.recorded id path).1.pending = client.pending := by
  unfold closeDocument
  split
  · rfl
  · exact (accords_afterDocumentClose _ path _).pending.trans (pending_notify _ setup id _ _)

theorem pending_resumeDocumentClose (cancelled : Bool) (path : String) (phase : NoticePhase) :
    (client.resumeDocumentClose setup.recorded cancelled path phase).1.pending = client.pending :=
  (accords_afterDocumentClose _ path _).pending.trans (client.pending_resumeNotice setup cancelled phase)

theorem pending_openBinding (number : Nat) (binding : Binding) (text : String) :
    (client.openBinding setup.recorded number binding text).1.pending = client.pending := by
  unfold openBinding
  split
  · exact (accords_afterBindingOpen _ number _).pending.trans (client.pending_openDocument setup _ _ _ _)
  · rfl

theorem pending_updateBinding (binding : Binding) (text : String) :
    (client.updateBinding setup.recorded binding text).1.pending = client.pending := by
  unfold updateBinding
  split
  · rfl
  · exact client.pending_changeDocument setup _ _ _

theorem pending_closeBinding (number : Nat) (binding : Binding) (leaving : Bool) :
    (client.closeBinding setup.recorded number binding leaving).1.pending = client.pending := by
  unfold closeBinding
  split
  · cases leaving <;> rfl
  · exact (accords_afterBindingClose _ number binding leaving _).pending.trans (client.pending_closeDocument setup _ _)

theorem pending_resumeUse (cancelled : Bool) (phase : NoticePhase) (use : NoticeUse) :
    (client.resumeUse setup.recorded cancelled phase use).1.pending = client.pending := by
  cases use with
  | plain => exact client.pending_resumeNotice setup cancelled phase
  | closing path => exact client.pending_resumeDocumentClose setup cancelled path phase
  | openingBinding number =>
    exact (accords_afterBindingOpen _ number _).pending.trans (client.pending_resumeNotice setup cancelled phase)
  | closingBinding number leaving =>
    unfold resumeUse
    dsimp only
    split
    · next binding _ =>
      exact (accords_afterBindingClose _ number binding leaving _).pending.trans
        (client.pending_resumeDocumentClose setup cancelled binding.path phase)
    · rfl

end Alone

/-! ## Requests and queries -/

section Requests

variable {own : Option Nat} {before : Client (σ × List Exchange)} (client : Client (σ × List Exchange))
  (setup : Setup σ)

theorem engages_awaitPromise (promise : Nat) :
    Engages RequestPhase.promise? (some promise) client (client.awaitPromise promise) := by
  unfold awaitPromise
  split
  · exact .ends (.refl _) _
  · exact ⟨.refl _, fun phase index hw hs => by cases hw; exact Or.inl hs⟩

theorem engages_afterSend (id : RequestId) (promise : Nat) (message : Outgoing)
    {step : Client (σ × List Exchange) × Progress Nat Unit} (h : Keeps (fun _ => False) before step.1) :
    Engages RequestPhase.promise? (some promise) before (step.1.afterSend id promise message step.2) := by
  obtain ⟨client, sent⟩ := step
  dsimp only [afterSend]
  split
  · exact ⟨h, fun phase index hw hs => by cases hw; exact Or.inl hs⟩
  · exact (client.engages_awaitPromise promise).after h
  · exact .ends h _
  · next cause _ =>
    have hreject : client.pending.Lasts (fun _ => False) (client.pending.reject id (message.failed cause)).1 := by
      rw [Pending.reject_fst]
      exact client.pending.lasts_finish id (Pending.isReply_error rfl)
    exact (engages_awaitPromise _ promise).after (h.trans ((keeps_setPending hreject).trans (keeps_logAll _ _)))

/-- The promise of a request that is made is new. -/
theorem engages_request (session method : String) (params : Json) (delay : Option Binary64) :
    Engages RequestPhase.promise? own client (client.request setup.recorded session method params delay) := by
  unfold request
  split
  · exact .ends (.refl _) _
  · dsimp only
    split
    · refine .ends ?_ _
      exact ⟨client.pending.lasts_nextId, List.prefix_refl _, Nat.le_refl _, fun _ hn hs => absurd hn hs⟩
    · next pending promise heq =>
      obtain ⟨rfl, rfl⟩ := Pending.eq_enter_of_register heq
      refine Engages.anew (engages_afterSend _ _ _ (keeps_ask _ setup _)) ?_ (Nat.le_refl _) ?_
      · exact client.keeps_enter method delay (some session)
      · dsimp only
        rw [Pending.enter, List.length_append]
        exact Nat.lt_succ_self _

theorem engages_requestIfPrintable (session method : String) (params : Json) (delay : Option Binary64) :
    Engages RequestPhase.promise? own client (client.requestIfPrintable setup.recorded session method params delay) := by
  unfold requestIfPrintable
  split
  · refine .ends ?_ _
    exact ⟨client.pending.lasts_nextId, List.prefix_refl _, Nat.le_refl _, fun _ hn hs => absurd hn hs⟩
  · exact client.engages_request setup session method params delay

theorem engages_resumeRequest (cancelled : Bool) (phase : RequestPhase) :
    Engages RequestPhase.promise? phase.promise? client (client.resumeRequest setup.recorded cancelled phase) := by
  cases phase with
  | sending ticket id promise message => exact engages_afterSend id promise message (client.keeps_goOn setup _ _)
  | waiting promise =>
    unfold resumeRequest
    dsimp only
    split
    · exact .ends (.refl _) _
    · exact client.engages_awaitPromise promise

theorem engages_afterQuery (query : Query) {step : Client (σ × List Exchange) × Progress RequestPhase Json}
    (h : Engages RequestPhase.promise? own before step) :
    Engages QueryPhase.promise? own before (step.1.afterQuery query step.2) := by
  obtain ⟨client, asked⟩ := step
  dsimp only [afterQuery]
  split
  · exact h.waits rfl
  · split
    · exact .ends h.keeps _
    · exact .ends (h.keeps.trans (client.keeps_logAll _)) _

theorem engages_query (query : Query) (id method : String) (params : Members) :
    Engages QueryPhase.promise? own client (client.query setup.recorded query id method params) :=
  engages_afterQuery query (client.engages_requestIfPrintable setup id method _ none)

theorem engages_resumeQuery (cancelled : Bool) (phase : QueryPhase) :
    Engages QueryPhase.promise? phase.promise? client (client.resumeQuery setup.recorded cancelled phase) :=
  engages_afterQuery phase.query (client.engages_resumeRequest setup cancelled phase.request)

theorem engages_lookupDefinition (path : String) (position : Position) :
    Engages QueryPhase.promise? own client (client.lookupDefinition setup.recorded path position) := by
  unfold lookupDefinition
  split
  · exact .ends (.refl _) _
  · exact (engages_query (client.log _) setup _ _ _ _).after (client.keeps_log _)

theorem engages_lookupReferences (path : String) (position : Position) :
    Engages QueryPhase.promise? own client (client.lookupReferences setup.recorded path position) := by
  unfold lookupReferences
  split
  · exact .ends (.refl _) _
  · exact (engages_query (client.log _) setup _ _ _ _).after (client.keeps_log _)

theorem engages_bindingHover (binding : Binding) (position : Position) :
    Engages QueryPhase.promise? own client (client.bindingHover setup.recorded binding position) := by
  unfold bindingHover
  split
  · exact client.engages_query setup _ _ _ _
  · exact .ends (.refl _) _

theorem engages_bindingDefinition (binding : Binding) (position : Position) :
    Engages QueryPhase.promise? own client (client.bindingDefinition setup.recorded binding position) := by
  unfold bindingDefinition
  split
  · exact client.engages_query setup _ _ _ _
  · exact client.engages_lookupDefinition setup _ _

theorem engages_bindingReferences (binding : Binding) (position : Position) :
    Engages QueryPhase.promise? own client (client.bindingReferences setup.recorded binding position) := by
  unfold bindingReferences
  split
  · exact client.engages_query setup _ _ _ _
  · exact client.engages_lookupReferences setup _ _

end Requests

/-! ## Handshakes and attempts -/

section Attempts

variable {own : Option Nat} {before : Client (σ × List Exchange)} (client : Client (σ × List Exchange))
  (setup : Setup σ)

theorem engages_afterConfiguring {step : Client (σ × List Exchange) × Progress NoticePhase Unit}
    (h : Keeps (fun _ => False) before step.1) :
    Engages HandshakePhase.promise? own before (step.1.afterConfiguring step.2) := by
  obtain ⟨client, notice | outcome⟩ := step
  · exact engages_waits h rfl
  · exact .ends h outcome

theorem engages_configure (session : Session) :
    Engages HandshakePhase.promise? own client (client.configure setup.recorded session) := by
  unfold configure
  split
  · exact .ends (.refl _) _
  · split
    · exact .ends (.refl _) _
    · exact engages_afterConfiguring (client.keeps_notifyIfPrintable setup _ _ _)

theorem engages_afterTelling (session : Session) (told : Progress NoticePhase Unit) :
    Engages HandshakePhase.promise? own client (client.afterTelling setup.recorded session told) := by
  unfold afterTelling
  split
  · exact engages_waits (.refl _) rfl
  · exact .ends (.refl _) _
  · exact client.engages_configure setup session

theorem engages_afterAsking (number : Nat) (session : Session)
    {step : Client (σ × List Exchange) × Progress RequestPhase Json}
    (h : Engages RequestPhase.promise? own before step) :
    Engages HandshakePhase.promise? own before (step.1.afterAsking setup.recorded number session step.2) := by
  obtain ⟨client, asked⟩ := step
  dsimp only [afterAsking]
  split
  · exact h.waits rfl
  · exact .ends h.keeps _
  · refine (engages_afterTelling _ setup session _).after (h.keeps.trans (Keeps.trans ?_ (keeps_notify _ setup _ _ _)))
    split
    · exact keeps_of_eq rfl rfl rfl
    · exact .refl client

theorem engages_shakeHands (number : Nat) (session : Session) :
    Engages HandshakePhase.promise? own client (client.shakeHands setup.recorded number session) :=
  engages_afterAsking setup number session (client.engages_requestIfPrintable setup session.id "initialize" _ none)

theorem engages_resumeHandshake (cancelled : Bool) (number : Nat) (session : Session) (phase : HandshakePhase) :
    Engages HandshakePhase.promise? phase.promise? client
      (client.resumeHandshake setup.recorded cancelled number session phase) := by
  cases phase with
  | asking request =>
    exact engages_afterAsking setup number session (client.engages_resumeRequest setup cancelled request)
  | telling notice =>
    exact (engages_afterTelling _ setup session _).after (client.keeps_resumeNotice setup cancelled notice)
  | configuring notice => exact engages_afterConfiguring (client.keeps_resumeNotice setup cancelled notice)

theorem keeps_afterStopCall (number : Nat) (session : Session) (stopped : Progress Nat Unit) :
    Keeps (fun _ => False) client (client.afterStopCall number session stopped).1 := by
  unfold afterStopCall
  split
  · exact .refl client
  · exact .refl client
  · dsimp only
    split <;> exact keeps_of_eq rfl rfl rfl

theorem keeps_discard (number : Nat) (session : Session) (reason : String) :
    Keeps (fun _ => False) client (client.discard setup.recorded number session reason).1 :=
  ((keeps_setPending (client.pending.lasts_cancelAll reason (some session.id))).trans (keeps_ask _ setup _)).trans
    (keeps_afterStopCall _ number session _)

theorem keeps_resumeDiscard (cancelled : Bool) (number : Nat) (session : Session) :
    Keeps (fun _ => False) client (client.resumeDiscard setup.recorded cancelled number session).1 :=
  (client.keeps_goOn setup cancelled _).trans (keeps_afterStopCall _ number session _)

/-- The session whose handshake failed was taken apart, or not. -/
theorem engages_afterDiscard (number : Nat) (session : Session) (fault : Fault) (discarded : Progress Nat Unit) :
    Engages AttemptPhase.promise? own client (client.afterDiscard number session fault discarded) := by
  unfold afterDiscard
  split
  · exact engages_waits (.refl _) rfl
  · exact .ends (.refl _) _
  · refine .ends ?_ _
    exact keeps_of_eq rfl rfl rfl

theorem engages_handshakeFailed (number : Nat) (session : Session) (fault : Fault) :
    Engages AttemptPhase.promise? own client (client.handshakeFailed setup.recorded number session fault) := by
  unfold handshakeFailed
  split
  · exact .ends (client.keeps_log _) _
  · exact (engages_afterDiscard _ number session fault _).after
      ((client.keeps_log _).trans (keeps_discard _ setup number session _))

theorem engages_handshakeSucceeded (number : Nat) (session : Session) :
    Engages AttemptPhase.promise? own client (client.handshakeSucceeded number session) := by
  unfold handshakeSucceeded
  split
  · refine .ends ?_ _
    exact keeps_of_eq rfl rfl rfl
  · exact .ends (.refl _) _

theorem engages_afterHandshake (number : Nat) {step : Client (σ × List Exchange) × Progress HandshakePhase Unit}
    (h : Engages HandshakePhase.promise? own before step) :
    Engages AttemptPhase.promise? own before (step.1.afterHandshake setup.recorded number step.2) := by
  obtain ⟨client, shaken⟩ := step
  dsimp only [afterHandshake]
  split
  · exact h.waits rfl
  · split
    · exact .ends h.keeps _
    · exact (client.engages_handshakeSucceeded number _).after h.keeps
    · exact (client.engages_handshakeFailed setup number _ _).after h.keeps

theorem engages_afterAbort (language session : String) (stopped : Progress Nat Unit) :
    Engages AttemptPhase.promise? own client (client.afterAbort language session stopped) := by
  unfold afterAbort
  split
  · exact engages_waits (.refl _) rfl
  · exact .ends (.refl _) _
  · exact .ends (.refl _) _

theorem keeps_enrol (session : Session) : Keeps (fun _ => False) client (client.enrol session) := by
  unfold enrol
  dsimp only
  split <;> exact keeps_of_eq rfl rfl rfl

theorem engages_afterServerStart (language root : String) (started : Progress Nat StartResult) :
    Engages AttemptPhase.promise? own client (client.afterServerStart setup.recorded language root started) := by
  unfold afterServerStart
  split
  · exact engages_waits (.refl _) rfl
  · exact .ends (.refl _) _
  · next result =>
    split
    · exact .ends (.refl _) _
    · split
      · exact (engages_afterAbort _ language result.session _).after (client.keeps_ask setup _)
      · exact engages_afterHandshake setup _ ((engages_shakeHands _ setup _ _).after (client.keeps_enrol _))

theorem engages_afterInspection (language : String) (inspected : Progress Nat Availability) :
    Engages AttemptPhase.promise? own client (client.afterInspection setup.recorded language inspected) := by
  unfold afterInspection
  split
  · exact engages_waits (.refl _) rfl
  · exact .ends (.refl _) _
  · dsimp only
    split
    · refine .ends ?_ _
      exact keeps_of_eq rfl rfl rfl
    · exact .ends (.refl _) _

theorem engages_afterCheck (language root : String) (checked : Progress Nat Bool) :
    Engages AttemptPhase.promise? own client (client.afterCheck setup.recorded language root checked) := by
  unfold afterCheck
  split
  · exact engages_waits (.refl _) rfl
  · exact .ends (.refl _) _
  · exact (engages_afterServerStart _ setup language root _).after (client.keeps_ask setup _)
  · exact (engages_afterInspection _ setup language _).after (client.keeps_ask setup _)

theorem engages_attempt (language root : String) :
    Engages AttemptPhase.promise? own client (client.attempt setup.recorded language root) :=
  (engages_afterCheck _ setup language root _).after ((client.keeps_log _).trans (keeps_ask _ setup _))

theorem engages_resumeAttempt (cancelled : Bool) (language root : String) (phase : AttemptPhase) :
    Engages AttemptPhase.promise? phase.promise? client
      (client.resumeAttempt setup.recorded cancelled language root phase) := by
  have hgoOn : ∀ call, Keeps (fun _ => False) client (client.goOn setup.recorded cancelled call).1 :=
    fun call => client.keeps_goOn setup cancelled call
  cases phase with
  | checking ticket => exact (engages_afterCheck _ setup language root _).after (hgoOn _)
  | inspecting ticket => exact (engages_afterInspection _ setup language _).after (hgoOn _)
  | starting ticket => exact (engages_afterServerStart _ setup language root _).after (hgoOn _)
  | aborting ticket session => exact (engages_afterAbort _ language session _).after (hgoOn _)
  | shaking number handshake =>
    unfold resumeAttempt
    dsimp only
    split
    · exact .ends (.refl _) _
    · exact engages_afterHandshake setup number (client.engages_resumeHandshake setup cancelled number _ handshake)
  | discarding ticket number fault =>
    unfold resumeAttempt
    dsimp only
    split
    · exact .ends (.refl _) _
    · exact (engages_afterDiscard _ number _ fault _).after (client.keeps_resumeDiscard setup cancelled number _)

end Attempts

/-! ## Stops and closings -/

section Stops

variable {own : Option Nat} {before : Client (σ × List Exchange)} (client : Client (σ × List Exchange))
  (setup : Setup σ)

theorem engages_afterStopDiscard (number : Nat) (session : Session) (discarded : Progress Nat Unit) :
    Engages StopPhase.promise? own client (client.afterStopDiscard number session discarded) := by
  unfold afterStopDiscard
  split
  · exact engages_waits (.refl _) rfl
  · exact .ends (.refl _) _
  · refine .ends ?_ _
    exact keeps_of_eq rfl rfl rfl

theorem engages_afterGoodbye (number : Nat) (session : Session) (outcome : Except Fault Unit) :
    Engages StopPhase.promise? own client (client.afterGoodbye setup.recorded number session outcome) := by
  unfold afterGoodbye
  split
  · exact .ends (.refl _) _
  · refine (engages_afterStopDiscard _ number session _).after (Keeps.trans ?_ (keeps_discard _ setup number session _))
    split
    · exact .refl client
    · exact client.keeps_log _

theorem engages_afterExit (number : Nat) (session : Session) (told : Progress NoticePhase Unit) :
    Engages StopPhase.promise? own client (client.afterExit setup.recorded number session told) := by
  unfold afterExit
  split
  · exact engages_waits (.refl _) rfl
  · exact engages_afterGoodbye client setup number session _

theorem engages_afterShutdown (number : Nat) (session : Session)
    {step : Client (σ × List Exchange) × Progress RequestPhase Json}
    (h : Engages RequestPhase.promise? own before step) :
    Engages StopPhase.promise? own before (step.1.afterShutdown setup.recorded number session step.2) := by
  obtain ⟨client, asked⟩ := step
  dsimp only [afterShutdown]
  split
  · exact h.waits rfl
  · exact (engages_afterGoodbye client setup number session _).after h.keeps
  · exact (engages_afterExit _ setup number session _).after (h.keeps.trans (client.keeps_notify setup _ _ _))

theorem engages_stop (id : String) : Engages StopPhase.promise? own client (client.stop setup.recorded id) := by
  unfold stop
  split
  · next number session _ _ =>
    split
    · exact .ends (.refl _) _
    · refine (engages_afterShutdown setup number session (engages_request (setStage _ _ _) setup _ _ _ _)).after ?_
      exact keeps_of_eq rfl rfl rfl
  · exact .ends (.refl _) _

theorem engages_resumeStop (cancelled : Bool) (phase : StopPhase) :
    Engages StopPhase.promise? phase.promise? client (client.resumeStop setup.recorded cancelled phase) := by
  unfold resumeStop
  dsimp only
  split
  · exact .ends (.refl _) _
  · next session _ =>
    cases phase with
    | asking number request =>
      exact engages_afterShutdown setup number session (client.engages_resumeRequest setup cancelled request)
    | telling number notice =>
      exact (engages_afterExit _ setup number session _).after (client.keeps_resumeNotice setup cancelled notice)
    | discarding number ticket =>
      exact (engages_afterStopDiscard _ number session _).after
        (client.keeps_resumeDiscard setup cancelled number session)

theorem engages_stopEach (ids : List String) :
    Engages StopAllPhase.promise? own client (client.stopEach setup.recorded ids) := by
  induction ids generalizing client with
  | nil => exact .ends (.refl _) _
  | cons id rest ih =>
    have h : Engages StopPhase.promise? own client _ := client.engages_stop setup id
    rw [stopEach]
    generalize client.stop setup.recorded id = step at h
    obtain ⟨client, current | fault | ⟨⟩⟩ := step
    · exact h.waits rfl
    · exact .ends h.keeps _
    · exact (ih client).after h.keeps

theorem engages_resumeStopAll (cancelled : Bool) (phase : StopAllPhase) :
    Engages StopAllPhase.promise? phase.promise? client (client.resumeStopAll setup.recorded cancelled phase) := by
  have h := client.engages_resumeStop setup cancelled phase.current
  rw [resumeStopAll]
  generalize client.resumeStop setup.recorded cancelled phase.current = step at h
  obtain ⟨client, current | fault | ⟨⟩⟩ := step
  · exact h.waits rfl
  · exact .ends h.keeps _
  · exact (client.engages_stopEach setup _).after h.keeps

theorem keeps_closeScope (scope : Scope) : Keeps (fun _ => False) client (client.closeScope scope) := by
  have h : Keeps (fun _ => False) client _ :=
    keeps_setPending (client.pending.lasts_cancelAll "LSP service shutting down" none)
  cases scope <;> exact h.trans (keeps_of_eq rfl rfl rfl)

theorem keeps_gathers (tickets : Nat) (attempts : List Nat) (gathers : Entries Nat Nat) :
    Keeps (fun _ => False) client
      (attempts.foldl (fun client attempt => client.gather tickets attempt)
        { client with tickets := client.tickets + 1, gathers }) :=
  ((client.calm_tickets gathers).trans (calm_gatherAll _ tickets attempts)).keeps
    (accords_gathers _ _ _).pending

theorem engages_afterStopAll (scope : Scope) {step : Client (σ × List Exchange) × Progress StopAllPhase Unit}
    (h : Engages StopAllPhase.promise? own before step) :
    Engages ClosePhase.promise? own before (step.1.afterStopAll scope step.2) := by
  obtain ⟨client, stopped⟩ := step
  dsimp only [afterStopAll]
  split
  · exact h.waits rfl
  · exact .ends h.keeps _
  · split
    · exact .ends (h.keeps.trans (client.keeps_closeScope scope)) _
    · exact engages_waits (h.keeps.trans (client.keeps_gathers _ _ _)) rfl

theorem engages_close (scope : Scope) :
    Engages ClosePhase.promise? own client (client.close setup.recorded scope) :=
  let shut := { client.log (.info "Cleaning up LSP session manager") with isClosing := true }
  engages_afterStopAll scope ((shut.engages_stopEach setup shut.sessions.ids).after
    (keeps_of_eq rfl rfl rfl))

theorem engages_resumeClose (cancelled : Bool) (scope : Scope) (phase : ClosePhase) :
    Engages ClosePhase.promise? phase.promise? client (client.resumeClose setup.recorded cancelled scope phase) := by
  cases phase with
  | stopping stops => exact engages_afterStopAll scope (client.engages_resumeStopAll setup cancelled stops)
  | gathering ticket attempts =>
    unfold resumeClose
    dsimp only
    split
    · exact .ends (.refl _) _
    · exact .ends (client.keeps_closeScope scope) _

end Stops

/-! ## Activities -/

section Activities

variable {own : Option Nat} {before : Client (σ × List Exchange)} (client : Client (σ × List Exchange))
  (setup : Setup σ)

theorem keeps_openScope (scope : Scope) : Keeps (fun _ => False) client (client.openScope scope) :=
  (client.same_openScope scope).calm.keeps (client.accords_openScope scope).pending

theorem engages_afterDeparture (scope : Scope) (started : Except Fault String)
    {step : Client (σ × List Exchange) × Progress ClosePhase Unit} (h : Engages ClosePhase.promise? own before step) :
    Engages Activity.promise? own before (step.1.afterDeparture scope started step.2) := by
  obtain ⟨client, closed⟩ := step
  dsimp only [afterDeparture]
  split
  · exact h.waits rfl
  · exact .ends h.keeps _
  · exact .ends h.keeps _

theorem engages_afterArrival (scope : Scope) (started : Progress JoinPhase String) :
    Engages Activity.promise? own client (client.afterArrival setup.recorded scope started) := by
  unfold afterArrival
  split
  · exact engages_waits (.refl _) rfl
  · exact engages_afterDeparture scope _ (client.engages_close setup scope)

/-- What waits for no promise. -/
theorem engages_of_keeps {step : Client (σ × List Exchange) × Progress Activity Answer}
    (h : Keeps (fun _ => False) client step.1) (hn : ∀ phase, step.2 = .waits phase → phase.promise? = none) :
    Engages Activity.promise? own client step :=
  ⟨h, fun phase promise hw hs => by cases (hn phase hw).symm.trans hs⟩

theorem engages_silently {φ : Type} {activity : φ → Activity} {step : Client (σ × List Exchange) × Progress φ Unit}
    (h : Keeps (fun _ => False) client step.1) (hn : ∀ phase, (activity phase).promise? = none) :
    Engages Activity.promise? own client (silently activity step) :=
  client.engages_of_keeps h fun phase hw => by
    obtain ⟨next, waiting | outcome⟩ := step <;> cases hw
    exact hn waiting

theorem engages_withSession {activity : JoinPhase → Activity}
    {step : Client (σ × List Exchange) × Progress JoinPhase String} (h : Keeps (fun _ => False) client step.1)
    (hn : ∀ phase, (activity phase).promise? = none) :
    Engages Activity.promise? own client (withSession activity step) :=
  client.engages_of_keeps h fun phase hw => by
    obtain ⟨next, waiting | outcome⟩ := step <;> cases hw
    exact hn waiting

theorem engages_connected (number : Nat) {step : Client (σ × List Exchange) × Progress JoinPhase (Option String)}
    (h : Keeps (fun _ => False) client step.1) : Engages Activity.promise? own client (connected number step) :=
  client.engages_of_keeps h fun phase hw => by
    obtain ⟨next, waiting | outcome⟩ := step <;> cases hw
    rfl

theorem engages_afterServerInspection (language : String)
    {step : Client (σ × List Exchange) × Progress Nat Availability} (h : Keeps (fun _ => False) client step.1) :
    Engages Activity.promise? own client (step.1.afterServerInspection language step.2) := by
  obtain ⟨next, ticket | outcome⟩ := step
  · exact client.engages_of_keeps h fun phase hw => by cases hw; rfl
  · exact client.engages_of_keeps h fun phase hw => by cases hw

theorem engages_afterDownload (language : String) {step : Client (σ × List Exchange) × Progress Nat String}
    (h : Keeps (fun _ => False) client step.1) :
    Engages Activity.promise? own client (step.1.afterDownload language step.2) := by
  obtain ⟨next, ticket | fault | path⟩ := step
  · exact client.engages_of_keeps h fun phase hw => by cases hw; rfl
  · exact client.engages_of_keeps h fun phase hw => by cases hw
  · exact client.engages_of_keeps (h.trans (keeps_of_eq rfl rfl rfl)) fun phase hw => by cases hw

theorem engages_withBinding (number : Nat) {f : Binding → Client (σ × List Exchange) × Progress Activity Answer}
    (h : ∀ binding, Engages Activity.promise? own client (f binding)) :
    Engages Activity.promise? own client (client.withBinding number f) := by
  unfold withBinding
  split
  · exact h _
  · exact .ends (.refl _) _

theorem engages_queried {step : Client (σ × List Exchange) × Progress QueryPhase Answer}
    (h : Engages QueryPhase.promise? own before step) : Engages Activity.promise? own before (queried step) := by
  obtain ⟨next, waiting | outcome⟩ := step
  · exact h.waits rfl
  · exact .ends h.keeps _

theorem engages_visit (scope : Scope) (language root : String) :
    Engages Activity.promise? own client (client.visit setup.recorded scope language root) := by
  refine Engages.after (engages_afterArrival ((client.openScope scope).start setup.recorded language root).1 _ _ _) ?_
  exact (client.keeps_openScope scope).trans
    ((advances_start _ setup.recorded language root).keeps (accords_start _ setup language root).pending)

/-- An operation that begins waits for no promise, or for a new one. -/
theorem engages_beginOperation (operation : Operation) :
    Engages Activity.promise? own client (client.beginOperation setup.recorded operation) := by
  cases operation with
  | enter scope =>
    exact client.engages_of_keeps (client.keeps_openScope scope) (fun _ hw => nomatch hw)
  | close scope => exact (client.engages_close setup scope).translate fun _ => rfl
  | visit scope language root => exact client.engages_visit setup scope language root
  | start language root =>
    exact client.engages_withSession
      ((client.advances_start setup.recorded language root).keeps (client.accords_start setup language root).pending)
      fun _ => rfl
  | stop session => exact (client.engages_stop setup session).translate fun _ => rfl
  | stopAll => exact (client.engages_stopEach setup client.sessions.ids).translate fun _ => rfl
  | openDocument session path language text =>
    exact client.engages_silently ((client.proceeds_openDocument setup.recorded session path language text).keeps
      (client.pending_openDocument setup session path language text)) fun _ => rfl
  | changeDocument session path text =>
    exact client.engages_silently ((client.proceeds_changeDocument setup.recorded session path text).keeps
      (client.pending_changeDocument setup session path text)) fun _ => rfl
  | closeDocument session path =>
    exact client.engages_silently ((client.proceeds_closeDocument setup.recorded session path).keeps
      (client.pending_closeDocument setup session path)) fun _ => rfl
  | request session method params delay =>
    exact (client.engages_requestIfPrintable setup session method params delay).translate fun _ => rfl
  | notify session method params =>
    exact client.engages_silently (client.keeps_notifyIfPrintable setup session method params) fun _ => rfl
  | hover session path position => exact engages_queried (client.engages_query setup _ _ _ _)
  | definition session path position => exact engages_queried (client.engages_query setup _ _ _ _)
  | references session path position withDeclaration =>
    exact engages_queried (client.engages_query setup _ _ _ _)
  | symbols session path => exact engages_queried (client.engages_query setup _ _ _ _)
  | inspect language =>
    exact client.engages_afterServerInspection language (client.keeps_ask setup (.inspect language))
  | download language =>
    exact client.engages_afterDownload language ((client.keeps_log _).trans (keeps_ask _ setup (.download language)))
  | lookupDefinition path position => exact engages_queried (client.engages_lookupDefinition setup path position)
  | lookupReferences path position => exact engages_queried (client.engages_lookupReferences setup path position)
  | connect number =>
    exact client.engages_withBinding number fun binding =>
      client.engages_connected number ((client.advances_connect setup.recorded number binding).keeps
        (client.accords_connect setup number binding).pending)
  | disconnect number =>
    exact client.engages_withBinding number fun binding =>
      client.engages_silently ((client.proceeds_closeBinding setup.recorded number binding true).keeps
        (client.pending_closeBinding setup number binding true)) fun _ => rfl
  | openBinding number text =>
    exact client.engages_withBinding number fun binding =>
      client.engages_silently ((client.proceeds_openBinding setup.recorded number binding text).keeps
        (client.pending_openBinding setup number binding text)) fun _ => rfl
  | updateBinding number text =>
    exact client.engages_withBinding number fun binding =>
      client.engages_silently ((client.proceeds_updateBinding setup.recorded binding text).keeps
        (client.pending_updateBinding setup binding text)) fun _ => rfl
  | closeBinding number =>
    exact client.engages_withBinding number fun binding =>
      client.engages_silently ((client.proceeds_closeBinding setup.recorded number binding false).keeps
        (client.pending_closeBinding setup number binding false)) fun _ => rfl
  | bindingHover number position =>
    exact client.engages_withBinding number fun binding =>
      engages_queried (client.engages_bindingHover setup binding position)
  | bindingDefinition number position =>
    exact client.engages_withBinding number fun binding =>
      engages_queried (client.engages_bindingDefinition setup binding position)
  | bindingReferences number position =>
    exact client.engages_withBinding number fun binding =>
      engages_queried (client.engages_bindingReferences setup binding position)

/-- An activity that goes on waits for its promise further, for none, or for a new one. -/
theorem engages_resumeActivity (cancelled : Bool) (activity : Activity) :
    Engages Activity.promise? activity.promise? client (client.resumeActivity setup.recorded cancelled activity) := by
  cases activity with
  | joining phase =>
    exact client.engages_withSession
      ((client.advances_resumeJoin cancelled phase).keeps (client.accords_resumeJoin cancelled phase).pending)
      fun _ => rfl
  | connecting number phase =>
    exact client.engages_withBinding number fun binding =>
      client.engages_connected number ((client.advances_resumeConnect cancelled number binding phase).keeps
        (client.accords_resumeConnect cancelled number binding phase).pending)
  | stopping phase => exact (client.engages_resumeStop setup cancelled phase).translate fun _ => rfl
  | stoppingAll phase => exact (client.engages_resumeStopAll setup cancelled phase).translate fun _ => rfl
  | closing scope phase => exact (client.engages_resumeClose setup cancelled scope phase).translate fun _ => rfl
  | arriving scope phase =>
    refine Engages.after (engages_afterArrival (client.resumeJoin cancelled phase).1 setup scope _) ?_
    exact (client.advances_resumeJoin cancelled phase).keeps (client.accords_resumeJoin cancelled phase).pending
  | departing scope started phase =>
    exact engages_afterDeparture scope started (client.engages_resumeClose setup cancelled scope phase)
  | noticing use phase =>
    exact client.engages_silently ((client.proceeds_resumeUse setup.recorded cancelled phase use).keeps
      (client.pending_resumeUse setup cancelled phase use)) fun _ => rfl
  | requesting phase => exact (client.engages_resumeRequest setup cancelled phase).translate fun _ => rfl
  | querying phase => exact engages_queried (client.engages_resumeQuery setup cancelled phase)
  | inspecting ticket language =>
    exact client.engages_afterServerInspection language (client.keeps_goOn setup cancelled (.inspect language))
  | downloading ticket language =>
    exact client.engages_afterDownload language (client.keeps_goOn setup cancelled (.download language))

end Activities

end Client

end LanguageSessions
