import LanguageSessions.Proofs.Client.Attempt
import LanguageSessions.Proofs.Client.Pledges
import LanguageSessions.Proofs.Client.Statuses

/-!
# Taking a session apart

Each step of the stop of a session leaves alone whatever belongs to other sessions, and where it ends it does so without
a fault and the session is taken apart (`Tears`, `tears_stop`, `tears_resumeStop`), whatever fails on the way: that the
server cannot be asked to shut down, that it answers with an error or not in time, that it cannot be told to exit, and
that its process cannot be stopped. Only a cancellation goes through, and a process layer that ends a call with one is
ruled out (`Layer.StopsUncancelled`, `Layer.SendsUncancelled`).
-/

namespace LanguageSessions

/-- No message is handed over as if the caller had been cancelled. -/
def Layer.SendsUncancelled {σ : Type} (layer : Layer σ) : Prop :=
  ∀ state ticket session text, (layer.call state ticket (.send session text)).reply ≠ .raises .cancelled ∧
    (layer.resume state ticket (.send session text)).reply ≠ .raises .cancelled

/-! ## The registered session of an identifier -/

namespace SessionRegistry

/-- The session with a number is registered under its identifier, or no session is and it knows no documents. -/
def Seated (registry : SessionRegistry) (number : Nat) (id : String) : Prop :=
  ∀ session, registry.session? number = some session → session.id = id →
    registry.number? id = some number ∨ registry.number? id = none ∧ session.versions = []

variable {registry : SessionRegistry} {number : Nat} {id : String}

/-- Something happens to a session, but not to its identifier or its documents. -/
theorem Seated.modify (h : registry.Seated number id) {other : Nat} {f : Session → Session}
    (keeps : ∀ session, registry.session? other = some session →
      (f session).id = session.id ∧ (f session).versions = session.versions) :
    (registry.modify other f).Seated number id := by
  intro session found hid
  rw [session?_modify] at found
  split at found
  · next hn =>
    obtain ⟨before, hbefore, rfl⟩ := Option.map_eq_some_iff.1 found
    obtain ⟨hsame, hversions⟩ := keeps before (hn ▸ hbefore)
    rw [hversions]
    exact h before hbefore (hsame.symm.trans hid)
  · exact h session found hid

/-- A session that is taken out forgets its documents. -/
theorem Seated.remove (h : registry.Seated number id) (gone : String) : (registry.remove gone).Seated number id := by
  intro session found hid
  rw [number?_remove]
  unfold SessionRegistry.remove at found
  split at found
  · next hnone =>
    split
    · next hgone =>
      rcases h session found hid with listed | ⟨-, hversions⟩
      · exact nomatch (hgone ▸ hnone).symm.trans listed
      · exact Or.inr ⟨rfl, hversions⟩
    · exact h session found hid
  · next other hother =>
    change (registry.modify other Session.closeAll).session? number = some session at found
    rw [session?_modify] at found
    split at found
    · obtain ⟨before, hbefore, rfl⟩ := Option.map_eq_some_iff.1 found
      split
      · exact Or.inr ⟨rfl, rfl⟩
      · exact (h before hbefore hid).imp_right fun hnone => ⟨hnone.1, rfl⟩
    · next hn =>
      split
      · next hgone =>
        rw [hgone] at hother
        rcases h session found hid with listed | ⟨hnone, -⟩
        · exact absurd (Option.some.inj (hother.symm.trans listed)) hn
        · exact nomatch hnone.symm.trans hother
      · exact h session found hid

end SessionRegistry

/-! ## Tables -/

/-- What a client keeps about its sessions. -/
structure Tables where
  sessions : SessionRegistry
  pending : Pending
  routes : Routes
  status : StatusBoard

/-- What a client keeps about its sessions. -/
def Client.tables {σ : Type} (client : Client σ) : Tables :=
  ⟨client.sessions, client.pending, client.routes, client.status⟩

namespace Tables

/-- Whatever belongs to the sessions with other identifiers is as it was. -/
structure Spares (id : String) (before after : Tables) : Prop where
  sessions : ∀ number session, before.sessions.session? number = some session → session.id ≠ id →
    after.sessions.session? number = some session
  numbers : (after.sessions.numbers.filter fun entry => entry.1 != id) =
    before.sessions.numbers.filter fun entry => entry.1 != id
  byFile : (after.routes.byFile.filter fun entry => entry.2.session != id) =
    before.routes.byFile.filter fun entry => entry.2.session != id
  byRoot : (after.routes.byRoot.filter fun entry => entry.2 != id) =
    before.routes.byRoot.filter fun entry => entry.2 != id
  status : ∀ other, other ≠ id → after.status.get? other = before.status.get? other
  pending : before.pending.Spares id after.pending

/-- The session with a number was taken apart: it is not registered, it has stopped and knows no documents any more, no
route leads to it, and it is shown as stopped. -/
structure TornDown (tables : Tables) (number : Nat) (session : Session) : Prop where
  absent : tables.sessions.has session.id = false
  stopped : ∃ current, tables.sessions.session? number = some current ∧ current.id = session.id ∧
    current.stage = .stopped ∧ current.versions = []
  byFile : ∀ path route, (path, route) ∈ tables.routes.byFile → route.session ≠ session.id
  byRoot : ∀ key, (key, session.id) ∉ tables.routes.byRoot
  shown : tables.status.get? session.id = some ⟨session.id, session.language, session.root, .stopped, none⟩

/-- The session with a number is there, and no other is registered under its identifier. -/
structure Hosts (tables : Tables) (number : Nat) (session : Session) : Prop where
  found : ∃ current, tables.sessions.session? number = some current ∧ current.id = session.id
  seated : tables.sessions.Seated number session.id
  apart : tables.pending.Apart

section Spares

variable {id : String} {first second third tables : Tables}

theorem Spares.refl (id : String) (tables : Tables) : Spares id tables tables :=
  ⟨fun _ _ found _ => found, rfl, rfl, rfl, fun _ _ => rfl, .refl id _⟩

theorem Spares.trans (h : Spares id first second) (h' : Spares id second third) : Spares id first third where
  sessions number session found hid := h'.sessions number session (h.sessions number session found hid) hid
  numbers := h'.numbers.trans h.numbers
  byFile := h'.byFile.trans h.byFile
  byRoot := h'.byRoot.trans h.byRoot
  status other ho := (h'.status other ho).trans (h.status other ho)
  pending := h.pending.trans h'.pending

/-- What is shown about servers is spared anyway, if it is compared with itself. -/
theorem Spares.withStatus (h : Spares id first second) :
    Spares id { first with status := second.status } second :=
  ⟨h.sessions, h.numbers, h.byFile, h.byRoot, fun _ _ => rfl, h.pending⟩

theorem spares_pending {pending : Pending} (h : tables.pending.Spares id pending) :
    Spares id tables { tables with pending } :=
  ⟨fun _ _ found _ => found, rfl, rfl, rfl, fun _ _ => rfl, h⟩

theorem spares_show (tables : Tables) (status : ServerStatus) :
    Spares status.session tables { tables with status := tables.status.set status } where
  sessions _ _ found _ := found
  numbers := rfl
  byFile := rfl
  byRoot := rfl
  status other ho := by
    change (tables.status.servers.set status.session status).get? other = _
    rw [Entries.get?_set, if_neg fun heq => ho heq.symm]
    rfl
  pending := .refl _ _

/-- Something happens to a session with the identifier. -/
theorem spares_modify {number : Nat} {f : Session → Session}
    (own : ∀ session, tables.sessions.session? number = some session → session.id = id) :
    Spares id tables { tables with sessions := tables.sessions.modify number f } where
  sessions n session found hid := by
    change (tables.sessions.modify number f).session? n = some session
    rw [SessionRegistry.session?_modify, if_neg, found]
    rintro rfl
    exact hid (own session found)
  numbers := rfl
  byFile := rfl
  byRoot := rfl
  status _ _ := rfl
  pending := .refl _ _

end Spares

/-! ## What happens to the tables -/

/-- A session is taken out, with all routes to it. -/
def drop (tables : Tables) (number : Nat) (id : String) : Tables :=
  { tables with
    routes := tables.routes.unregisterSession id
    sessions := (tables.sessions.remove id).modify number fun session => { session with stage := .stopped } }

section Hosts

variable {tables : Tables} {number : Nat} {session : Session}

theorem Hosts.withPending (h : tables.Hosts number session) {pending : Pending} (ha : pending.Apart) :
    ({ tables with pending } : Tables).Hosts number session := ⟨h.found, h.seated, ha⟩

/-- A session stays what it is where its stage changes. -/
theorem Hosts.setStage (h : tables.Hosts number session) (stage : SessionStage) :
    ({ tables with sessions := tables.sessions.modify number fun session => { session with stage } } : Tables).Hosts
      number session := by
  obtain ⟨current, found, hid⟩ := h.found
  refine ⟨⟨{ current with stage }, ?_, hid⟩, h.seated.modify fun _ _ => ⟨rfl, rfl⟩, h.apart⟩
  exact (SessionRegistry.session?_modify ..).trans (by rw [if_pos rfl, found]; rfl)

theorem Hosts.spares_setStage (h : tables.Hosts number session) (stage : SessionStage) :
    Spares session.id tables
      { tables with sessions := tables.sessions.modify number fun session => { session with stage } } := by
  obtain ⟨current, found, hid⟩ := h.found
  refine spares_modify fun other ho => ?_
  cases found.symm.trans ho
  exact hid

theorem Hosts.eq_of_listed (h : tables.Hosts number session) {n : Nat}
    (listed : tables.sessions.number? session.id = some n) : n = number := by
  obtain ⟨current, found, hid⟩ := h.found
  rcases h.seated current found hid with hnumber | ⟨hnone, -⟩
  · exact Option.some.inj (listed.symm.trans hnumber)
  · exact nomatch hnone.symm.trans listed

theorem Hosts.session?_remove (h : tables.Hosts number session) :
    ∃ current, (tables.sessions.remove session.id).session? number = some current ∧ current.id = session.id ∧
      current.versions = [] := by
  obtain ⟨current, found, hid⟩ := h.found
  unfold SessionRegistry.remove
  split
  · next hnone =>
    rcases h.seated current found hid with listed | ⟨-, hversions⟩
    · exact nomatch hnone.symm.trans listed
    · exact ⟨current, found, hid, hversions⟩
  · next n listed =>
    cases h.eq_of_listed listed
    refine ⟨current.closeAll, ?_, hid, rfl⟩
    exact (SessionRegistry.session?_modify ..).trans (by rw [if_pos rfl, found]; rfl)

/-- A session that is taken out takes nothing of others with it. -/
theorem Hosts.spares_drop (h : tables.Hosts number session) :
    Spares session.id tables (tables.drop number session.id) where
  sessions n other found hid := by
    obtain ⟨current, hcurrent, hown⟩ := h.found
    have hn : number ≠ n := by
      rintro rfl
      cases hcurrent.symm.trans found
      exact hid hown
    change ((tables.sessions.remove session.id).modify number _).session? n = some other
    rw [SessionRegistry.session?_modify, if_neg hn]
    unfold SessionRegistry.remove
    split
    · exact found
    · next m listed =>
      cases h.eq_of_listed listed
      exact (SessionRegistry.session?_modify ..).trans (by rw [if_neg hn, found])
  numbers := by
    change (tables.sessions.remove session.id).numbers.filter _ = _
    unfold SessionRegistry.remove
    split
    · rfl
    · change (tables.sessions.numbers.erase session.id).filter _ = _
      rw [Entries.erase_eq_filter, List.filter_filter]
      refine List.filter_congr fun entry _ => ?_
      by_cases hentry : entry.1 = session.id <;> simp [hentry]
  byFile := by
    change (tables.routes.byFile.filter _).filter _ = _
    rw [List.filter_filter]
    simp only [Bool.and_self]
  byRoot := by
    change (tables.routes.byRoot.filter _).filter _ = _
    rw [List.filter_filter]
    simp only [Bool.and_self]
  status _ _ := rfl
  pending := .refl _ _

/-- **A session that is taken out and shown as stopped is taken apart.** -/
theorem Hosts.tornDown (h : tables.Hosts number session) :
    TornDown
      { tables.drop number session.id with
        status := tables.status.set ⟨session.id, session.language, session.root, .stopped, none⟩ } number session where
  absent := by
    refine Option.isSome_eq_false_iff.2 (Option.isNone_iff_eq_none.2 ?_)
    exact (SessionRegistry.number?_remove ..).trans (if_pos rfl)
  stopped := by
    obtain ⟨current, found, hid, hversions⟩ := h.session?_remove
    refine ⟨{ current with stage := .stopped }, ?_, hid, rfl, hversions⟩
    exact (SessionRegistry.session?_modify ..).trans (by rw [if_pos rfl, found]; rfl)
  byFile path route hm := by
    obtain ⟨-, hne⟩ := List.mem_filter.1 hm
    exact bne_iff_ne.1 hne
  byRoot key hm := by
    obtain ⟨-, hne⟩ := List.mem_filter.1 hm
    exact bne_iff_ne.1 hne rfl
  shown := by
    change (tables.status.servers.set _ _).get? _ = _
    rw [Entries.get?_set, if_pos rfl]

/-- A session that has gone on is the same one, taken apart. -/
theorem TornDown.of_advances {before : Session} (h : tables.TornDown number session) (ha : before.Advances session) :
    tables.TornDown number before := by
  obtain ⟨hid, hlanguage, hroot, -⟩ := ha
  obtain ⟨absent, stopped, byFile, byRoot, shown⟩ := h
  rw [hid] at absent stopped byFile byRoot shown
  rw [hlanguage, hroot] at shown
  exact ⟨absent, stopped, byFile, byRoot, shown⟩

end Hosts

end Tables

/-! ## What is known of a stop that waits -/

/-- While a request is handed over, its entry is one of its session. -/
def RequestPhase.Held (id : String) (pending : Pending) : RequestPhase → Prop
  | .sending _ request _ _ => ∃ number : Int, request = .number number ∧ number ≤ pending.lastId ∧
    ∀ entry, pending.entries.get? request = some entry → entry.session = some id
  | .waiting _ => True

/-- The promise of a request was not cancelled, and while it is handed over its entry is one of its session. -/
def RequestPhase.Unbroken (id : String) (pending : Pending) (phase : RequestPhase) : Prop :=
  (∀ promise, phase.promise? = some promise → pending.outcome? promise ≠ some (.error .cancelled)) ∧
    phase.Held id pending

/-- The stop of a session waits, and nobody broke the request in it off. -/
def StopPhase.Unbroken (number : Nat) (id : String) (pending : Pending) (phase : StopPhase) : Prop :=
  phase.session = number ∧
    match phase with
    | .asking _ request => request.Unbroken id pending
    | .telling _ _ | .discarding _ _ => True

/-- A signal does not come about by itself: if it is a promise, it has no outcome. -/
def Signal.Outstanding (pending : Pending) (signal : Signal) : Prop :=
  ∀ index, signal = .promise index → pending.outcome? index = none

section Lasting

variable {quits : Nat → Prop} {before after : Pending} {id : String}

theorem RequestPhase.Held.lasts {phase : RequestPhase} (h : phase.Held id before) (hl : before.Lasts quits after)
    (ha : before.Apart) : phase.Held id after := by
  cases phase with
  | sending ticket request promise message =>
    obtain ⟨number, rfl, hle, hown⟩ := h
    exact ⟨number, rfl, Int.le_trans hle hl.lastId, fun entry he => hown entry (hl.get? ha hle he)⟩
  | waiting promise => trivial

/-- A request stays unbroken while its waiter does not quit. -/
theorem RequestPhase.Unbroken.lasts {phase : RequestPhase} (h : phase.Unbroken id before)
    (hl : before.Lasts quits after) (ha : before.Apart)
    (hq : ∀ promise, phase.promise? = some promise → ¬ quits promise) : phase.Unbroken id after :=
  ⟨fun promise hp hc => h.1 promise hp (hl.uncancelled promise (hq promise hp) hc), h.2.lasts hl ha⟩

theorem StopPhase.Unbroken.lasts {number : Nat} {phase : StopPhase} (h : phase.Unbroken number id before)
    (hl : before.Lasts quits after) (ha : before.Apart)
    (hq : ∀ promise, phase.promise? = some promise → ¬ quits promise) : phase.Unbroken number id after := by
  refine ⟨h.1, ?_⟩
  cases phase with
  | asking n request => exact RequestPhase.Unbroken.lasts h.2 hl ha hq
  | telling n notice => trivial
  | discarding n ticket => trivial

end Lasting

namespace Client

variable {σ α : Type}

/-! ## Calls of the process layer -/

section Calls

variable (client : Client (σ × List Exchange)) {setup : Setup σ}

theorem tables_afterCall (step : LayerStep σ α) (client : Client σ) :
    (client.afterCall step).1.tables = client.tables := by
  unfold afterCall
  cases step.reply <;> rfl

theorem tables_logAll (client : Client σ) (entries : Log) : (client.logAll entries).tables = client.tables := by
  rw [logAll_eq]
  rfl

theorem tables_ask (setup : Setup σ) (call : LayerCall) : (client.ask setup.recorded call).1.tables = client.tables :=
  tables_afterCall _ _

theorem tables_goOn (setup : Setup σ) (cancelled : Bool) (call : LayerCall) :
    (client.goOn setup.recorded cancelled call).1.tables = client.tables := by
  unfold goOn
  split
  · rfl
  · exact tables_afterCall _ _

theorem tables_afterNotice (message : Outgoing) (sent : Progress Nat Unit) :
    (client.afterNotice message sent).1.tables = client.tables := by
  rw [afterNotice_fst]

theorem tables_notify (setup : Setup σ) (session method : String) (params : Json) :
    (client.notify setup.recorded session method params).1.tables = client.tables :=
  (tables_afterNotice _ _ _).trans (client.tables_ask setup _)

theorem tables_notifyIfPrintable (setup : Setup σ) (session method : String) (params : Json) :
    (client.notifyIfPrintable setup.recorded session method params).1.tables = client.tables := by
  unfold notifyIfPrintable
  split
  · exact client.tables_notify setup session method params
  · rfl

theorem tables_resumeNotice (setup : Setup σ) (cancelled : Bool) (phase : NoticePhase) :
    (client.resumeNotice setup.recorded cancelled phase).1.tables = client.tables :=
  (tables_afterNotice _ _ _).trans (client.tables_goOn setup cancelled _)

theorem afterCall_uncancelled {step : LayerStep σ α} (h : step.reply ≠ .raises .cancelled) (client : Client σ) :
    (client.afterCall step).2 ≠ .ends (.error .cancelled) := by
  unfold afterCall
  cases hr : step.reply with
  | waits => exact nofun
  | returns answer => exact nofun
  | raises fault =>
    rintro ⟨⟩
    exact h hr

/-- A call that is not cancelled by the process layer does not end as if it were. -/
theorem ask_uncancelled {call : LayerCall}
    (h : ∀ state ticket, (setup.layer.call state ticket call).reply ≠ .raises .cancelled) :
    (client.ask setup.recorded call).2 ≠ .ends (.error .cancelled) := by
  have hr : (setup.recorded.layer.call client.layer client.tickets call).reply ≠ .raises .cancelled := h _ _
  exact afterCall_uncancelled hr _

theorem goOn_uncancelled {call : LayerCall}
    (h : ∀ state ticket, (setup.layer.resume state ticket call).reply ≠ .raises .cancelled) :
    (client.goOn setup.recorded false call).2 ≠ .ends (.error .cancelled) := by
  have hr : (setup.recorded.layer.resume client.layer client.tickets call).reply ≠ .raises .cancelled := h _ _
  exact afterCall_uncancelled hr _

theorem afterNotice_uncancelled (message : Outgoing) {sent : Progress Nat Unit} (h : sent ≠ .ends (.error .cancelled)) :
    (client.afterNotice message sent).2 ≠ .ends (.error .cancelled) := by
  unfold afterNotice
  split
  · exact nofun
  · exact nofun
  · exact absurd rfl h
  · exact nofun

end Calls

/-! ## Requests of a session -/

/-- A step of a request of a session leaves alone what belongs to others. -/
structure Poses (id : String) (before : Client σ) (step : Client σ × Progress RequestPhase Json) : Prop where
  rest : step.1.tables = { before.tables with pending := step.1.pending }
  spares : before.pending.Spares id step.1.pending
  apart : step.1.pending.Apart
  held : ∀ phase, step.2 = .waits phase → phase.Held id step.1.pending

/-- A step of a request of a session leaves alone what belongs to others, and does not end as if it were cancelled. -/
structure Asks (id : String) (before : Client σ) (step : Client σ × Progress RequestPhase Json) : Prop extends
    Poses id before step where
  waits : ∀ phase, step.2 = .waits phase → phase.Unbroken id step.1.pending ∧ phase.signal.Outstanding step.1.pending
  uncancelled : step.2 ≠ .ends (.error .cancelled)

section Posing

variable {id : String} {before client : Client (σ × List Exchange)} {pending : Pending} {setup : Setup σ}

theorem poses_awaitPromise (hr : client.tables = { before.tables with pending })
    (hs : before.pending.Spares id pending) (ha : pending.Apart) (promise : Nat) :
    Poses id before (client.awaitPromise promise) := by
  obtain rfl : client.pending = pending := congrArg Tables.pending hr
  unfold awaitPromise
  split
  · exact ⟨hr, hs, ha, nofun⟩
  · refine ⟨hr, hs, ha, fun phase hw => ?_⟩
    cases hw
    trivial

/-- A request that is held cannot be handed over. -/
theorem spares_reject {request : RequestId} {promise : Nat} {message : Outgoing} (ha : pending.Apart)
    (held : ∀ ticket, (RequestPhase.sending ticket request promise message).Held id pending) (fault : Fault) :
    pending.Spares id (pending.reject request fault).1 := by
  rw [Pending.reject_fst]
  refine ha.spares_finish request _ fun entry he => ?_
  obtain ⟨number, -, -, hown⟩ := held 0
  exact hown entry he

theorem lasts_reject (pending : Pending) (request : RequestId) (fault : Fault) (hf : fault.endsRequest = true) :
    pending.Lasts (fun _ => False) (pending.reject request fault).1 := by
  rw [Pending.reject_fst]
  exact pending.lasts_finish request (Pending.isReply_error hf)

/-- A request was handed over, or not. -/
theorem poses_afterSend {request : RequestId} {promise : Nat} {message : Outgoing}
    {step : Client (σ × List Exchange) × Progress Nat Unit} (hr : step.1.tables = { before.tables with pending })
    (hs : before.pending.Spares id pending) (ha : pending.Apart)
    (held : ∀ ticket, (RequestPhase.sending ticket request promise message).Held id pending) :
    Poses id before (step.1.afterSend request promise message step.2) := by
  obtain ⟨client, sent⟩ := step
  obtain rfl : client.pending = pending := congrArg Tables.pending hr
  dsimp only [afterSend]
  split
  · refine ⟨hr, hs, ha, fun phase hw => ?_⟩
    cases hw
    exact held _
  · exact poses_awaitPromise hr hs ha promise
  · exact ⟨hr, hs, ha, nofun⟩
  · next cause _ =>
    have hlasts := lasts_reject client.pending request (message.failed cause) rfl
    refine poses_awaitPromise ((tables_logAll _ _).trans ?_) (hs.trans (spares_reject ha held _)) (hlasts.apart ha) _
    change ({ client.tables with pending := _ } : Tables) = _
    rw [hr]
    rfl

/-- A request that was registered just now is held. -/
theorem held_enter (ha : pending.Apart) (method : String) (delay : Option Binary64) (ticket promise : Nat)
    (message : Outgoing) :
    (RequestPhase.sending ticket pending.nextId.2 promise message).Held id
      (pending.nextId.1.enter pending.nextId.2 method delay (some id)) := by
  refine ⟨pending.lastId + 1, rfl, Int.le_refl _, fun entry he => ?_⟩
  -- No other entry has the identifier that was given out just now.
  have hnew := Entries.get?_of_mem (ha.enter method delay (some id)).once
    (List.mem_append_right _ (List.mem_singleton_self _))
  cases he.symm.trans hnew
  rfl

/-- An identifier is given out, and the request fails. -/
theorem poses_nextId (client : Client (σ × List Exchange)) (ha : client.pending.Apart) (fault : Fault) :
    Poses id client ({ client with pending := client.pending.nextId.1 }, .ends (.error fault)) := by
  have hlasts : client.pending.Lasts (fun _ => False) client.pending.nextId.1 := client.pending.lasts_nextId
  exact ⟨rfl, ⟨rfl, fun _ _ _ => rfl, fun _ _ _ _ _ => Iff.rfl⟩, hlasts.apart ha, nofun⟩

/-- A request is made. -/
theorem poses_request (ha : client.pending.Apart) (method : String) (params : Json) (delay : Option Binary64) :
    Poses id client (client.request setup.recorded id method params delay) := by
  unfold request
  split
  · exact ⟨rfl, .refl _ _, ha, nofun⟩
  · dsimp only
    split
    · exact client.poses_nextId ha _
    · next pending promise heq =>
      obtain ⟨rfl, rfl⟩ := Pending.eq_enter_of_register heq
      exact poses_afterSend (tables_ask _ setup _) (ha.spares_enter method delay) (ha.enter method delay (some id))
        fun ticket => held_enter ha method delay ticket _ _

theorem poses_requestIfPrintable (ha : client.pending.Apart) (method : String) (params : Json)
    (delay : Option Binary64) : Poses id client (client.requestIfPrintable setup.recorded id method params delay) := by
  unfold requestIfPrintable
  split
  · exact client.poses_nextId ha _
  · exact poses_request ha method params delay

/-- A request goes on. -/
theorem poses_resumeRequest (ha : client.pending.Apart) (cancelled : Bool) {phase : RequestPhase}
    (held : phase.Held id client.pending) :
    Poses id client (client.resumeRequest setup.recorded cancelled phase) := by
  cases phase with
  | waiting promise =>
    unfold resumeRequest
    dsimp only
    split
    · exact ⟨rfl, .refl _ _, ha, nofun⟩
    · exact poses_awaitPromise rfl (.refl id _) ha promise
  | sending ticket request promise message =>
    exact poses_afterSend (client.tables_goOn setup cancelled _) (.refl id _) ha fun _ => held

end Posing

section Asking

variable {id : String} {before client : Client (σ × List Exchange)} {pending : Pending} {setup : Setup σ}

theorem asks_awaitPromise {promise : Nat} (h : Poses id before (client.awaitPromise promise))
    (hc : client.pending.outcome? promise ≠ some (.error .cancelled)) :
    Asks id before (client.awaitPromise promise) := by
  unfold awaitPromise at h ⊢
  split at h
  · next outcome ho =>
    refine ⟨h, nofun, ?_⟩
    rintro ⟨⟩
    exact hc ho
  · next hnone =>
    refine ⟨h, fun phase hw => ?_, nofun⟩
    cases hw
    refine ⟨⟨fun index hp => ?_, trivial⟩, fun index hsignal => ?_⟩
    · cases hp
      exact hc
    · cases hsignal
      exact hnone

/-- A request was handed over, or not. -/
theorem asks_afterSend {request : RequestId} {promise : Nat} {message : Outgoing}
    {step : Client (σ × List Exchange) × Progress Nat Unit} (hr : step.1.tables = { before.tables with pending })
    (hs : before.pending.Spares id pending) (ha : pending.Apart)
    (hu : ∀ ticket, (RequestPhase.sending ticket request promise message).Unbroken id pending)
    (hsent : step.2 ≠ .ends (.error .cancelled)) :
    Asks id before (step.1.afterSend request promise message step.2) := by
  have hposes := poses_afterSend hr hs ha fun ticket => (hu ticket).2
  obtain ⟨client, sent⟩ := step
  obtain rfl : client.pending = pending := congrArg Tables.pending hr
  dsimp only [afterSend] at hposes ⊢
  split at hposes
  · refine ⟨hposes, fun phase hw => ?_, nofun⟩
    cases hw
    exact ⟨hu _, nofun⟩
  · exact asks_awaitPromise hposes ((hu 0).1 promise rfl)
  · exact absurd rfl hsent
  · next cause _ =>
    have hlasts := lasts_reject client.pending request (message.failed cause) rfl
    refine asks_awaitPromise hposes fun hc => (hu 0).1 promise rfl (hlasts.uncancelled promise False.elim ?_)
    have hpending := congrArg Tables.pending (tables_logAll
      (client.setPending (client.pending.reject request (message.failed cause)).1)
      (client.pending.reject request (message.failed cause)).2.2)
    exact congrArg (fun pending : Pending => pending.outcome? promise) hpending ▸ hc

/-- A request is made. -/
theorem asks_request (hsends : setup.layer.SendsUncancelled) (ha : client.pending.Apart) (method : String)
    (params : Json) (delay : Option Binary64) :
    Asks id client (client.request setup.recorded id method params delay) := by
  unfold request
  split
  · exact ⟨⟨rfl, .refl _ _, ha, nofun⟩, nofun, nofun⟩
  · dsimp only
    split
    · next fault heq =>
      have hlasts : client.pending.Lasts (fun _ => False) client.pending.nextId.1 := client.pending.lasts_nextId
      refine ⟨⟨rfl, ⟨rfl, fun _ _ _ => rfl, fun _ _ _ _ _ => Iff.rfl⟩, hlasts.apart ha, nofun⟩, nofun, ?_⟩
      rintro ⟨⟩
      exact Pending.ne_cancelled_of_register heq rfl
    · next pending promise heq =>
      obtain ⟨rfl, rfl⟩ := Pending.eq_enter_of_register heq
      refine asks_afterSend (tables_ask _ setup _) (ha.spares_enter method delay) (ha.enter method delay (some id))
        (fun ticket => ⟨fun index hp hc => ?_, held_enter ha method delay ticket _ _⟩) ?_
      · cases hp
        obtain ⟨promise, hpromise, houtcome⟩ := Pending.outcome?_eq_some_iff.1 hc
        cases hpromise.symm.trans (client.pending.nextId.1.getElem?_enter _ method delay (some id))
        cases houtcome
      · exact ask_uncancelled _ fun state ticket => (hsends state ticket id _).1

/-- A request goes on. -/
theorem asks_resumeRequest (hsends : setup.layer.SendsUncancelled) (ha : client.pending.Apart) {phase : RequestPhase}
    (hu : phase.Unbroken id client.pending) :
    Asks id client (client.resumeRequest setup.recorded false phase) := by
  cases phase with
  | waiting promise => exact asks_awaitPromise (poses_awaitPromise rfl (.refl id _) ha promise) (hu.1 promise rfl)
  | sending ticket request promise message =>
    exact asks_afterSend (client.tables_goOn setup false _) (.refl id _) ha (fun _ => hu)
      (client.goOn_uncancelled fun state ticket => (hsends state ticket message.session message.text).2)

end Asking

/-! ## The stop of a session -/

/-- A step of the stop of a session leaves alone what belongs to other sessions. Where it waits nobody broke it off, and
what it waits for is outstanding; it ends without a fault, and then the session is taken apart. -/
structure Tears (number : Nat) (session : Session) (before : Tables)
    (step : Client σ × Progress StopPhase Unit) : Prop where
  spares : before.Spares session.id step.1.tables
  waits : ∀ phase, step.2 = .waits phase →
    phase.Unbroken number session.id step.1.pending ∧ phase.signal.Outstanding step.1.pending
  ends : ∀ outcome, step.2 = .ends outcome → outcome = .ok () ∧ step.1.tables.TornDown number session

section Stopping

variable {number : Nat} {session : Session} {before : Tables} {client : Client (σ × List Exchange)} {setup : Setup σ}

theorem Tears.after {middle : Tables} {step : Client σ × Progress StopPhase Unit} (h : Tears number session middle step)
    (hs : before.Spares session.id middle) : Tears number session before step := ⟨hs.trans h.spares, h.waits, h.ends⟩

/-- The process of the session was stopped, or not. -/
theorem tears_afterStopCall (hosts : client.tables.Hosts number session) {stopped : Progress Nat Unit}
    (hstopped : stopped ≠ .ends (.error .cancelled)) :
    Tears number session client.tables
      ((client.afterStopCall number session stopped).1.afterStopDiscard number session
        (client.afterStopCall number session stopped).2) := by
  have hdropped : ∀ next : Client (σ × List Exchange),
      next.tables = { client.tables.drop number session.id with
        status := client.status.set ⟨session.id, session.language, session.root, .stopped, none⟩ } →
      Tears number session client.tables (next, .ends (.ok ())) := by
    intro next ht
    refine ⟨?_, nofun, fun outcome hends => ?_⟩
    · rw [show (next, _).1.tables = next.tables from rfl, ht]
      exact hosts.spares_drop.trans
        (Tables.spares_show _ ⟨session.id, session.language, session.root, .stopped, none⟩)
    · cases hends
      refine ⟨rfl, ?_⟩
      rw [show (next, _).1.tables = next.tables from rfl, ht]
      exact hosts.tornDown
  unfold afterStopCall
  split
  · refine ⟨.refl _ _, fun phase hw => ?_, nofun⟩
    cases hw
    exact ⟨⟨rfl, trivial⟩, nofun⟩
  · exact absurd rfl hstopped
  · split <;> exact hdropped _ rfl

/-- Whatever became of the farewell, the session is taken apart. -/
theorem tears_afterGoodbye (hstops : setup.layer.StopsUncancelled) (hosts : client.tables.Hosts number session)
    {outcome : Except Fault Unit} (ho : outcome ≠ .error .cancelled) :
    Tears number session client.tables (client.afterGoodbye setup.recorded number session outcome) := by
  have hdiscard : ∀ next : Client (σ × List Exchange), next.tables = client.tables → ∀ reason,
      Tears number session client.tables
        ((next.discard setup.recorded number session reason).1.afterStopDiscard number session
          (next.discard setup.recorded number session reason).2) := by
    intro next ht reason
    rw [← ht] at hosts ⊢
    have hlasts : next.pending.Lasts (fun _ => False) (next.pending.cancelAll reason (some session.id)).1 :=
      next.pending.lasts_cancelAll reason (some session.id)
    have hasked := tables_ask (next.setPending (next.pending.cancelAll reason (some session.id)).1) setup
      (.stop session.id)
    unfold discard
    dsimp only
    refine Tears.after (tears_afterStopCall ?_ ?_) ?_
    · rw [hasked]
      exact hosts.withPending (hlasts.apart hosts.apart)
    · exact ask_uncancelled _ fun state ticket => (hstops state ticket session.id).1
    · rw [hasked]
      exact Tables.spares_pending (hosts.apart.spares_cancelAll reason)
  unfold afterGoodbye
  split
  · exact absurd rfl ho
  · dsimp only
    refine hdiscard _ ?_ _
    split <;> rfl

/-- The server was told to exit, or not. -/
theorem tears_afterExit (hstops : setup.layer.StopsUncancelled) (hosts : client.tables.Hosts number session)
    {told : Progress NoticePhase Unit} (ht : told ≠ .ends (.error .cancelled)) :
    Tears number session client.tables (client.afterExit setup.recorded number session told) := by
  unfold afterExit
  split
  · refine ⟨.refl _ _, fun phase hw => ?_, nofun⟩
    cases hw
    exact ⟨⟨rfl, trivial⟩, nofun⟩
  · next outcome => exact tears_afterGoodbye hstops hosts fun ho => ht (by rw [ho])

/-- The server was asked to shut down, and answered or not. -/
theorem tears_afterShutdown (hstops : setup.layer.StopsUncancelled) (hsends : setup.layer.SendsUncancelled)
    (hosts : client.tables.Hosts number session) {step : Client (σ × List Exchange) × Progress RequestPhase Json}
    (h : Asks session.id client step) :
    Tears number session client.tables (step.1.afterShutdown setup.recorded number session step.2) := by
  obtain ⟨⟨hrest, hspares, hapart, -⟩, hwaits, huncancelled⟩ := h
  obtain ⟨asked, progress⟩ := step
  have hosts' : asked.tables.Hosts number session := hrest ▸ hosts.withPending hapart
  have htables : client.tables.Spares session.id asked.tables := hrest ▸ Tables.spares_pending hspares
  dsimp only [afterShutdown]
  split
  · next request =>
    refine ⟨htables, fun phase hw => ?_, nofun⟩
    cases hw
    obtain ⟨hunbroken, houtstanding⟩ := hwaits request rfl
    exact ⟨⟨rfl, hunbroken⟩, houtstanding⟩
  · next fault =>
    have hfault : (.error fault : Except Fault Unit) ≠ .error .cancelled := fun ho => by
      cases ho
      exact huncancelled rfl
    exact (tears_afterGoodbye hstops hosts' hfault).after htables
  · have hnotified := asked.tables_notify setup session.id "exit" .null
    refine Tears.after (tears_afterExit hstops (hnotified ▸ hosts') ?_) (hnotified ▸ htables)
    exact afterNotice_uncancelled _ _ (ask_uncancelled _ fun state ticket => (hsends state ticket session.id _).1)

/-- **The stop of a session begins.** -/
theorem tears_stop (hstops : setup.layer.StopsUncancelled) (hsends : setup.layer.SendsUncancelled)
    (hosts : client.tables.Hosts number session) (listed : client.sessions.number? session.id = some number)
    (found : client.sessions.session? number = some session) (live : session.stage.isEnding = false) :
    Tears number session client.tables (client.stop setup.recorded session.id) := by
  have hget : client.sessions.get? session.id = some session := Option.bind_eq_some_iff.2 ⟨number, listed, found⟩
  unfold stop
  rw [listed, hget]
  dsimp only
  rw [live]
  let shut := (client.log (.info ("Stopping server: " ++ session.id))).setStage number .shuttingDown
  have hosts' : shut.tables.Hosts number session := hosts.setStage .shuttingDown
  exact (tears_afterShutdown hstops hsends hosts' (asks_request hsends hosts'.apart _ _ _)).after
    (hosts.spares_setStage .shuttingDown)

/-- **The stop of a session goes on**, unless it was cancelled. -/
theorem tears_resumeStop (hstops : setup.layer.StopsUncancelled) (hsends : setup.layer.SendsUncancelled)
    (hosts : client.tables.Hosts number session) (found : client.sessions.session? number = some session)
    {phase : StopPhase} (hu : phase.Unbroken number session.id client.pending) :
    Tears number session client.tables (client.resumeStop setup.recorded false phase) := by
  obtain ⟨rfl, hu⟩ := hu
  cases phase with
  | asking number request =>
    unfold resumeStop
    dsimp only [StopPhase.session] at hosts found ⊢
    rw [found]
    exact tears_afterShutdown hstops hsends hosts (asks_resumeRequest hsends hosts.apart hu)
  | telling number notice =>
    have hnotified := client.tables_resumeNotice setup false notice
    unfold resumeStop
    dsimp only [StopPhase.session] at hosts found ⊢
    rw [found]
    refine Tears.after (tears_afterExit hstops (hnotified ▸ hosts) ?_) (hnotified ▸ .refl _ _)
    exact afterNotice_uncancelled _ _ (client.goOn_uncancelled fun state ticket => (hsends state ticket _ _).2)
  | discarding number ticket =>
    have hstopped := client.tables_goOn setup false (.stop session.id)
    unfold resumeStop
    dsimp only [StopPhase.session] at hosts found ⊢
    rw [found]
    refine Tears.after (tears_afterStopCall (hstopped ▸ hosts) ?_) (hstopped ▸ .refl _ _)
    exact client.goOn_uncancelled fun state ticket => (hstops state ticket session.id).2

end Stopping

end Client

end LanguageSessions
