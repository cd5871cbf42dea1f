import LanguageSessions.Proofs.Engine.Lifecycle

/-!
# Closing the client

The closing of a client stops the registered sessions one after the other, and while it waits the ends of all sessions
that it found have begun, but for those that it still has to stop (`EndsUpTo`). So when it returns the end of each of
them has begun, no request is pending, and nobody listens (`close_ends_the_sessions`).

To stop a session whose end has begun already is to do nothing. So a session may be left behind whose stop was given up
(`session_left_behind`).
-/

namespace LanguageSessions

/-! ## Sessions whose ends have begun -/

namespace SessionRegistry

/-- Of the first sessions those whose ends have not begun are registered under some identifiers, or not at all. -/
def EndsUpTo (registry : SessionRegistry) (count : Nat) (rest : List String) : Prop :=
  ∀ id number session, (id, number) ∈ registry.numbers → number < count → registry.session? number = some session →
    session.stage.isEnding = true ∨ id ∈ rest

section Ends

variable {registry later : SessionRegistry} {count : Nat} {rest : List String}

theorem endsUpTo_ids (registry : SessionRegistry) (count : Nat) : registry.EndsUpTo count registry.ids :=
  fun _ _ _ hm _ _ => Or.inr (Entries.mem_keys_of_mem hm)

/-- Sessions that are added later do not count. -/
theorem EndsUpTo.passes (h : registry.EndsUpTo count rest) (hp : registry.Passes later)
    (hc : count ≤ registry.sessions.length) : later.EndsUpTo count rest := by
  intro id number session hm hlt found
  have hold : registry.session? number = some registry.sessions[number] := List.getElem?_eq_getElem (by omega)
  obtain ⟨session', found', ha⟩ := hp.advances number _ hold
  cases found.symm.trans found'
  rcases hp.listed (id, number) hm with hm | hle
  · exact (h id number _ hm hlt hold).imp_left ha.isEnding
  · simp only at hle
    omega

theorem EndsUpTo.wanes (h : registry.EndsUpTo count rest) (hn : registry.Named) (hw : registry.Wanes later) :
    later.EndsUpTo count rest := by
  intro id number session hm hlt found
  have hm := hw.numbers (id, number) hm
  obtain ⟨before, hbefore, -⟩ := hn id number hm
  obtain ⟨after, hafter, hwanes⟩ := hw.session number before hbefore
  cases found.symm.trans hafter
  rcases hwanes.stage with hstage | hending
  · rw [hstage]
    exact h id number before hm hlt hbefore
  · exact Or.inl hending

/-- An identifier goes whose session has its end begun. -/
theorem EndsUpTo.shorten {id : String} (h : registry.EndsUpTo count (id :: rest))
    (hid : ∀ number session, (id, number) ∈ registry.numbers → registry.session? number = some session →
      session.stage.isEnding = true) : registry.EndsUpTo count rest := by
  intro other number session hm hlt found
  rcases h other number session hm hlt found with hending | hrest
  · exact Or.inl hending
  · rcases List.mem_cons.1 hrest with rfl | hrest
    · exact Or.inl (hid number session hm found)
    · exact Or.inr hrest

end Ends

end SessionRegistry

/-- Where a closing waits, the ends of the sessions that it found have begun, but for those that it still has to
stop. -/
def ClosePhase.EndsUpTo (count : Nat) (registry : SessionRegistry) : ClosePhase → Prop
  | .stopping phase => registry.EndsUpTo count phase.rest
  | .gathering _ _ => registry.EndsUpTo count []

namespace Client

variable {σ : Type}

/-! ## Stopping sessions -/

section Stopping

variable {count : Nat} {client : Client (σ × List Exchange)} (setup : Setup σ) {letters : List Letter}

/-- A session that was stopped does not have to be stopped any more. -/
theorem endsUpTo_stop (ho : (client.account letters).Coherent) {id : String} {rest : List String}
    (h : client.sessions.EndsUpTo count (id :: rest)) :
    (client.stop setup.recorded id).1.sessions.EndsUpTo count rest := by
  have hown : ∀ number, (id, number) ∈ client.sessions.numbers → client.sessions.number? id = some number :=
    fun number hm => Entries.get?_of_mem ho.unique hm
  unfold stop
  split
  · next number session listed hget =>
    have found : client.sessions.session? number = some session := SessionRegistry.session?_of_get? hget listed
    split
    · next hending =>
      refine h.shorten fun n other hm hother => ?_
      cases listed.symm.trans (hown n hm)
      cases found.symm.trans hother
      exact hending
    · let shut := (client.log (.info ("Stopping server: " ++ id))).setStage number .shuttingDown
      have hwanes : client.sessions.Wanes shut.sessions :=
        client.sessions.wanes_modify number fun _ => ⟨rfl, rfl, Or.inr rfl⟩
      have hshut : shut.sessions.EndsUpTo count rest := by
        refine (h.wanes ho.named hwanes).shorten fun n other hm hother => ?_
        cases listed.symm.trans (hown n hm)
        change (client.sessions.modify number _).session? number = some other at hother
        rw [SessionRegistry.session?_modify, if_pos rfl, found] at hother
        cases hother
        rfl
      let asked :=
        shut.request setup.recorded id "shutdown" .null (some shut.settings.shutdownTimeout.seconds)
      have hstopped : Proceeds StopPhase.signal shut (asked.1.afterShutdown setup.recorded number session asked.2) :=
        proceeds_afterShutdown number session (shut.proceeds_request setup.recorded id "shutdown" .null _)
      exact hshut.wanes (hwanes.named ho.named) hstopped.calm.sessions
  · next hnone =>
    -- There is nothing to stop: no session is registered under the identifier.
    refine h.shorten fun n other hm hother => ?_
    have hget : client.sessions.get? id = some other := Option.bind_eq_some_iff.2 ⟨n, hown n hm, hother⟩
    exact absurd hget (hnone n other (hown n hm))

/-- The stops of several sessions have got so far: what is left of them is still to come. -/
structure StopsUpTo (count : Nat) (registry : SessionRegistry) (progress : Progress StopAllPhase Unit) : Prop where
  waits : ∀ phase, progress = .waits phase → registry.EndsUpTo count phase.rest
  ends : progress = .ends (.ok ()) → registry.EndsUpTo count []

theorem stopsUpTo_waits {registry : SessionRegistry} {phase : StopAllPhase} (h : registry.EndsUpTo count phase.rest) :
    StopsUpTo count registry (.waits phase) := by
  refine ⟨fun next hp => ?_, fun hp => ?_⟩
  · cases hp
    exact h
  · cases hp

theorem stopsUpTo_fails (registry : SessionRegistry) (fault : Fault) :
    StopsUpTo count registry (.ends (.error fault)) := by
  refine ⟨fun next hp => ?_, fun hp => ?_⟩ <;> cases hp

theorem stopsUpTo_ends {registry : SessionRegistry} (h : registry.EndsUpTo count []) :
    StopsUpTo count registry (.ends (.ok ())) := by
  refine ⟨fun next hp => ?_, fun _ => h⟩
  cases hp

/-- Whoever stops all sessions whose ends have not begun. -/
def stopper : Role where
  greets _ := False
  opens _ _ := False
  ends _ := True
  aborts _ := False
  answers _ _ := False
  writes _ := False

theorem stopsUpTo_stopEach (ho : (client.account letters).Coherent) {ids : List String}
    (h : client.sessions.EndsUpTo count ids) :
    StopsUpTo count (client.stopEach setup.recorded ids).1.sessions (client.stopEach setup.recorded ids).2 := by
  induction ids generalizing client letters with
  | nil => exact stopsUpTo_ends h
  | cons id rest ih =>
    have hstopped := endsUpTo_stop setup ho h
    obtain ⟨letters', deeds, -⟩ : Does stopper _ _ _ := client.does_stop setup letters ho id (.of_all fun _ => trivial)
    have hcoherent := (deeds.since_coherent ho).2
    rw [stopEach]
    generalize client.stop setup.recorded id = step at hstopped hcoherent
    obtain ⟨client, current | fault | ⟨⟩⟩ := step
    · exact stopsUpTo_waits hstopped
    · exact stopsUpTo_fails _ fault
    · exact ih hcoherent hstopped

theorem stopsUpTo_resumeStopAll (ho : (client.account letters).Coherent) (cancelled : Bool) {phase : StopAllPhase}
    (parting : (client.account letters).Parting phase.current) (h : client.sessions.EndsUpTo count phase.rest) :
    StopsUpTo count (client.resumeStopAll setup.recorded cancelled phase).1.sessions
      (client.resumeStopAll setup.recorded cancelled phase).2 := by
  have hresumed := h.wanes ho.named (client.proceeds_resumeStop setup.recorded cancelled phase.current).calm.sessions
  obtain ⟨letters', deeds, -⟩ : Does stopper _ _ _ :=
    client.does_resumeStop setup letters ho cancelled trivial parting
  have hcoherent := (deeds.since_coherent ho).2
  rw [resumeStopAll]
  generalize client.resumeStop setup.recorded cancelled phase.current = step at hresumed hcoherent
  obtain ⟨client, current | fault | ⟨⟩⟩ := step
  · exact stopsUpTo_waits hresumed
  · exact stopsUpTo_fails _ fault
  · exact stopsUpTo_stopEach setup hcoherent hresumed

/-! ## Closing -/

/-- A client was closed: of the first sessions none is registered whose end has not begun, no request is pending, and
the client hears no message. -/
structure Closed (count : Nat) (client : Client σ) : Prop where
  sessions : client.sessions.EndsUpTo count []
  pending : client.pending.entries = []
  deaf : client.isListening = false
  reopened : client.isClosing = false

/-- The closing of a client has got so far. -/
structure ClosesUpTo (count : Nat) (client : Client σ) (progress : Progress ClosePhase Unit) : Prop where
  waits : ∀ phase, progress = .waits phase → phase.EndsUpTo count client.sessions
  ends : progress = .ends (.ok ()) → client.Closed count

theorem closed_closeScope (h : client.sessions.EndsUpTo count []) (scope : Scope) :
    (client.closeScope scope).Closed count := by
  have hempty := client.pending.entries_cancelAll "LSP service shutting down"
  cases scope <;> exact ⟨h, hempty, rfl, rfl⟩

theorem closesUpTo_afterStopAll (scope : Scope) {stopped : Progress StopAllPhase Unit}
    (h : StopsUpTo count client.sessions stopped) :
    ClosesUpTo count (client.afterStopAll scope stopped).1 (client.afterStopAll scope stopped).2 := by
  unfold afterStopAll
  split
  · next phase =>
    refine ⟨fun waiting hp => ?_, nofun⟩
    cases hp
    exact h.waits phase rfl
  · exact ⟨nofun, nofun⟩
  · split
    · exact ⟨nofun, fun _ => closed_closeScope (h.ends rfl) scope⟩
    · refine ⟨fun waiting hp => ?_, nofun⟩
      cases hp
      have hgathers := accords_gathers client.tickets client.starting.values
        { client with
          tickets := client.tickets + 1
          gathers := client.gathers.set client.tickets client.starting.values.length }
      have hsessions := congrArg Account.sessions (hgathers [])
      change SessionRegistry.EndsUpTo (account _ []).sessions count []
      rw [hsessions]
      exact h.ends rfl

/-- A client is closed: whatever sessions it has are to be stopped. -/
theorem closesUpTo_close (ho : (client.account letters).Coherent) (count : Nat) (scope : Scope) :
    ClosesUpTo count (client.close setup.recorded scope).1 (client.close setup.recorded scope).2 := by
  let begun := { client.log (.info "Cleaning up LSP session manager") with isClosing := true }
  have hbegun : (begun.account letters).Coherent := by
    rw [show begun.account letters = client.account letters from client.accords_log _ letters]
    exact ho
  exact closesUpTo_afterStopAll scope (stopsUpTo_stopEach setup hbegun (begun.sessions.endsUpTo_ids count))

theorem closesUpTo_resumeClose (ho : (client.account letters).Coherent) (cancelled : Bool) (scope : Scope)
    {phase : ClosePhase} (parting : ∀ stop, phase.stop? = some stop → (client.account letters).Parting stop)
    (h : phase.EndsUpTo count client.sessions) :
    ClosesUpTo count (client.resumeClose setup.recorded cancelled scope phase).1
      (client.resumeClose setup.recorded cancelled scope phase).2 := by
  cases phase with
  | stopping stops =>
    exact closesUpTo_afterStopAll scope (stopsUpTo_resumeStopAll setup ho cancelled (parting stops.current rfl) h)
  | gathering ticket attempts =>
    unfold resumeClose
    dsimp only
    split
    · exact ⟨nofun, nofun⟩
    · exact ⟨nofun, fun _ => closed_closeScope h scope⟩

end Stopping

end Client

namespace Engine

open Client

variable {σ : Type}

/-! ## The task of a closing -/

/-- A task closes the client: it is still to begin, or the closing has got so far, or it has ended. -/
inductive Closing (scope : Scope) (count : Nat) (registry : SessionRegistry) : TaskState → Prop where
  | ready : Closing scope count registry (.ready (.close scope))
  | waiting {phase : ClosePhase} (upTo : phase.EndsUpTo count registry) :
      Closing scope count registry (.waiting (.closing scope phase))
  | finished (outcome : Except Fault Answer) : Closing scope count registry (.finished outcome)

theorem Closing.passes {scope : Scope} {count : Nat} {registry later : SessionRegistry} {state : TaskState}
    (h : Closing scope count registry state) (hp : registry.Passes later) (hc : count ≤ registry.sessions.length) :
    Closing scope count later state := by
  cases h with
  | ready => exact .ready
  | @waiting phase upTo =>
    refine .waiting ?_
    cases phase <;> exact SessionRegistry.EndsUpTo.passes upTo hp hc
  | finished outcome => exact .finished outcome

section Tasks

variable {engine : Engine (σ × List Exchange)} {scope : Scope} {count task : Nat} {state : TaskState} {setup : Setup σ}
  {opens : String → Bool} {called : Operation → Prop} {answers : RequestId → Json → Prop} {letters : List Letter}

/-- The closing has got on, and when it returns the client is closed. -/
theorem closing_afterTask {step : Client (σ × List Exchange) × Progress ClosePhase Unit}
    (h : ClosesUpTo count step.1 step.2) (hlt : task < engine.tasks.length) :
    ∃ state, (engine.afterTask task (silently (.closing scope) step)).tasks[task]? = some ⟨state, false⟩ ∧
      Closing scope count (engine.afterTask task (silently (.closing scope) step)).client.sessions state ∧
      ∀ answer, state = .finished (.ok answer) →
        (engine.afterTask task (silently (.closing scope) step)).client.Closed count := by
  obtain ⟨client, phase | fault | ⟨⟩⟩ := step
  · exact ⟨_, List.getElem?_set_self hlt, .waiting (h.waits phase rfl), nofun⟩
  · exact ⟨_, List.getElem?_set_self hlt, .finished (.error fault), nofun⟩
  · refine ⟨_, List.getElem?_set_self hlt, .finished (.ok .nothing), fun _ _ => ?_⟩
    obtain ⟨hsessions, hpending, hdeaf, hreopened⟩ := h.ends rfl
    exact ⟨hsessions, hpending, hdeaf, hreopened⟩

/-- The closing begins, unless it was cancelled before. -/
theorem closing_beginTask (h : Lawful opens called answers letters engine) (setup : Setup σ) {cancelled : Bool}
    (found : engine.tasks[task]? = some ⟨.ready (.close scope), cancelled⟩) (count : Nat) :
    ∃ state, (engine.beginTask setup.recorded task).tasks[task]? = some ⟨state, false⟩ ∧
      Closing scope count (engine.beginTask setup.recorded task).client.sessions state ∧
      ∀ answer, state = .finished (.ok answer) → (engine.beginTask setup.recorded task).client.Closed count := by
  have hlt := (List.getElem?_eq_some_iff.1 found).1
  rw [Engine.beginTask, found]
  dsimp only
  cases cancelled with
  | false => exact closing_afterTask (closesUpTo_close setup h.coherent count scope) hlt
  | true =>
    refine ⟨_, List.getElem?_set_self hlt, .finished (.error .cancelled), fun answer hanswer => ?_⟩
    cases hanswer

/-- The closing goes on. -/
theorem closing_resumeTask (h : Lawful opens called answers letters engine) (setup : Setup σ) {cancelled : Bool}
    {phase : ClosePhase} (found : engine.tasks[task]? = some ⟨.waiting (.closing scope phase), cancelled⟩)
    (upTo : phase.EndsUpTo count engine.client.sessions) :
    ∃ state, (engine.resumeTask setup.recorded task).tasks[task]? = some ⟨state, false⟩ ∧
      Closing scope count (engine.resumeTask setup.recorded task).client.sessions state ∧
      ∀ answer, state = .finished (.ok answer) → (engine.resumeTask setup.recorded task).client.Closed count := by
  have hlt := (List.getElem?_eq_some_iff.1 found).1
  have hparting : ∀ stop, phase.stop? = some stop → (engine.client.account letters).Parting stop :=
    fun stop hs => h.parting task stop ⟨_, _, found, rfl, hs⟩
  rw [Engine.resumeTask, found]
  exact closing_afterTask (closesUpTo_resumeClose setup h.coherent cancelled scope hparting upTo) hlt

/-- **The closing is kept through every event**, and the client is closed after the one in which it returns. -/
theorem Closing.goes (setup : Setup σ) (h : Lawful setup.opens called answers letters engine)
    (hs : Closing scope count engine.client.sessions state) {cancelled : Bool}
    (found : engine.tasks[task]? = some ⟨state, cancelled⟩) (hc : count ≤ engine.client.sessions.sessions.length)
    (event : Event σ) :
    ∃ state' cancelled', (engine.goes setup event).tasks[task]? = some ⟨state', cancelled'⟩ ∧
      Closing scope count (engine.goes setup event).client.sessions state' ∧
      (state' = state ∨ ∀ answer, state' = .finished (.ok answer) → (engine.goes setup event).client.Closed count) := by
  have hpasses : Closing scope count (engine.goes setup event).client.sessions state :=
    hs.passes (h.goes setup event).1 hc
  have hsame : ∀ cancelled', (engine.goes setup event).tasks[task]? = some ⟨state, cancelled'⟩ →
      ∃ state' cancelled', (engine.goes setup event).tasks[task]? = some ⟨state', cancelled'⟩ ∧
        Closing scope count (engine.goes setup event).client.sessions state' ∧
        (state' = state ∨ ∀ answer, state' = .finished (.ok answer) → (engine.goes setup event).client.Closed count) :=
    fun cancelled' hfound => ⟨state, cancelled', hfound, hpasses, Or.inl rfl⟩
  rcases task_goes setup event found with ⟨cancelled', hfound⟩ | ⟨queue, hturn⟩
  · exact hsame cancelled' hfound
  · have hfound : (engine.withQueue queue).tasks[task]? = some ⟨state, cancelled⟩ := found
    obtain ⟨-, letters', hpop⟩ : Leads setup.opens called answers engine (engine.withQueue queue) :=
      h.accords fun _ => rfl
    rcases hturn with heq | heq
    · cases hs with
      | ready =>
        obtain ⟨state', hstate', hclosing, hclosed⟩ := closing_beginTask hpop setup hfound count
        rw [heq]
        exact ⟨state', false, hstate', hclosing, Or.inr hclosed⟩
      | waiting _ | finished _ =>
        refine hsame cancelled ?_
        rw [heq, Engine.beginTask, hfound]
        exact hfound
    · cases hs with
      | waiting upTo =>
        obtain ⟨state', hstate', hclosing, hclosed⟩ := closing_resumeTask hpop setup hfound upTo
        rw [heq]
        exact ⟨state', false, hstate', hclosing, Or.inr hclosed⟩
      | ready | finished _ =>
        refine hsame cancelled ?_
        rw [heq, Engine.resumeTask, hfound]
        exact hfound

end Tasks

/-! ## In the course of events -/

section Course

variable (setup : Setup σ) (layer : σ) (settings : Settings) {scope : Scope} {task : Nat}

/-- A closing is kept in the course of events. -/
theorem closing_course (before after : List (Event σ)) {cancelled : Bool}
    (found : (course setup (fresh layer settings) before).tasks[task]? = some ⟨.ready (.close scope), cancelled⟩) :
    ∃ state cancelled', (course setup (fresh layer settings) (before ++ after)).tasks[task]? = some ⟨state, cancelled'⟩ ∧
      Closing scope (course setup (fresh layer settings) before).client.sessions.sessions.length
        (course setup (fresh layer settings) (before ++ after)).client.sessions state := by
  induction after using List.reverseRecOn with
  | nil =>
    rw [List.append_nil]
    exact ⟨_, cancelled, found, .ready⟩
  | append_singleton after event ih =>
    obtain ⟨state, cancelled', hfound, hclosing⟩ := ih
    obtain ⟨letters, h⟩ := lawful_course setup layer settings (before ++ after)
    have hlength := (passes_course setup layer settings before after).advances.length_le
    obtain ⟨state', cancelled'', hfound', hclosing', -⟩ := hclosing.goes setup h hfound hlength event
    rw [← List.append_assoc, course_concat]
    exact ⟨state', cancelled'', hfound', hclosing'⟩

/-- **When the closing of the client returns, the end of every session has begun** that was there before it began and is
registered still; no request is pending, and the client hears no message. -/
theorem close_ends_the_sessions (before after : List (Event σ)) (event : Event σ) {cancelled : Bool}
    (ready : (course setup (fresh layer settings) before).tasks[task]? = some ⟨.ready (.close scope), cancelled⟩)
    {answer : Answer} {waits returned : Bool} {state : TaskState}
    (found : (course setup (fresh layer settings) (before ++ after)).tasks[task]? = some ⟨state, waits⟩)
    (unfinished : state ≠ .finished (.ok answer))
    (found' : (course setup (fresh layer settings) (before ++ after ++ [event])).tasks[task]? =
      some ⟨.finished (.ok answer), returned⟩) :
    let client := (course setup (fresh layer settings) (before ++ after ++ [event])).client
    (∀ id number session, (id, number) ∈ client.sessions.numbers →
      number < (course setup (fresh layer settings) before).client.sessions.sessions.length →
      client.sessions.session? number = some session → session.stage.isEnding = true) ∧
    client.pending.entries = [] ∧ client.isListening = false ∧ client.isClosing = false := by
  obtain ⟨state', _, hfound, hclosing⟩ := closing_course setup layer settings before after ready
  cases hfound.symm.trans found
  obtain ⟨letters, h⟩ := lawful_course setup layer settings (before ++ after)
  have hlength := (passes_course setup layer settings before after).advances.length_le
  obtain ⟨later, _, hlater, -, hends⟩ := hclosing.goes setup h hfound hlength event
  rw [course_concat] at found' ⊢
  cases hlater.symm.trans found'
  obtain ⟨hsessions, hpending, hdeaf, hreopened⟩ := (hends.resolve_left (Ne.symm unfinished)) answer rfl
  refine ⟨fun id number session hm hlt hsession => ?_, hpending, hdeaf, hreopened⟩
  exact (hsessions id number session hm hlt hsession).resolve_right List.not_mem_nil

end Course

/-- A session is ready, and the call to stop it is cancelled while the server is to answer. Then the client is closed. -/
def abandoned : List (Event Unit) :=
  greeting ++ leaving ++ [.cancel 2, .turn, .turn, .call (.close .sessions), .turn]

/-- The closing returns with the session still registered, and nobody called for its process to be stopped. -/
theorem session_left_behind :
    let engine := course prompt (fresh () Settings.standard) abandoned
    engine.tasks[3]?.map (fun task => task.state matches .finished (.ok _)) = some true ∧
      engine.client.sessions.numbers = [("s", 0)] ∧
      engine.client.sessions.sessions.map (·.stage) = [.shuttingDown] ∧
      engine.client.history.all (fun effect => !effect matches .called (.stop _)) = true := by
  refine ⟨?_, ?_, ?_, ?_⟩ <;> decide +kernel

end Engine

end LanguageSessions
