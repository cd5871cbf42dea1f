import LanguageSessions.Proofs.Client.Greetings
import LanguageSessions.Proofs.Client.Servings

/-!
# How sessions end

A call to stop a session begins the end of the session, and it alone asks the server to shut down, which it does before
it tells it to exit. While it waits it is known how far it has got (`Parting`). An operation ends no sessions but those
that it is called to end (`Operation.Ends`) and whose end it began (`does_beginOperation`, `does_resumeActivity`), and
hands nothing over that nobody asked for.
-/

namespace LanguageSessions

/-! ## What is known of a stop that waits -/

/-- The session that a stop is at work on, by number. -/
def StopPhase.session : StopPhase → Nat
  | .asking number _ | .telling number _ | .discarding number _ => number

/-- The stop of a session that the closing of a client waits in. -/
def ClosePhase.stop? : ClosePhase → Option StopPhase
  | .stopping phase => some phase.current
  | .gathering _ _ => none

/-- The stop of a session that an activity waits in. -/
def Activity.stop? : Activity → Option StopPhase
  | .stopping phase => some phase
  | .stoppingAll phase => some phase.current
  | .closing _ phase | .departing _ _ phase => phase.stop?
  | _ => none

/-- An operation is called to end the session with an identifier. -/
def Operation.Ends (registry : SessionRegistry) (id : String) : Operation → Prop
  | .stop session => session = id
  | .stopAll => id ∈ registry.ids
  | .close _ | .visit .. => True
  | _ => False

/-- An operation that begins is to end the session with an identifier in a turn to come. -/
def Operation.EndsLater (registry : SessionRegistry) (id : String) : Operation → Prop
  | .stopAll => id ∈ registry.ids
  | .close _ | .visit .. => True
  | _ => False

theorem Operation.EndsLater.ends {registry : SessionRegistry} {id : String} {operation : Operation}
    (h : operation.EndsLater registry id) : operation.Ends registry id := by
  cases operation with
  | stopAll => exact h
  | close _ | visit _ _ _ => trivial
  | _ => cases h

/-- An operation that waits is still to end the session with an identifier. -/
def Activity.Ends (id : String) : Activity → Prop
  | .stoppingAll phase => id ∈ phase.rest
  | .closing .. | .arriving .. | .departing .. => True
  | _ => False

/-- The server is told to exit only after it was asked to shut down. -/
theorem Dispatch.InOrder.isShutDown {dispatches : List Dispatch} (h : InOrder dispatches) (he : .exit ∈ dispatches) :
    IsShutDown dispatches := by
  obtain ⟨before, after, rfl⟩ := List.append_of_mem he
  obtain ⟨⟨id, hm⟩, -⟩ := h before .exit after rfl
  exact ⟨id, List.mem_append_left _ hm⟩

namespace Account

/-- The end of the session with a number has begun. -/
def IsEnding (account : Account) (number : Nat) : Prop :=
  ∃ session, account.sessions.session? number = some session ∧ session.stage.isEnding = true

/-- What holds while the stop of a session waits in a phase. -/
def Parting (account : Account) (phase : StopPhase) : Prop :=
  account.IsEnding phase.session ∧
    match phase with
    | .asking number _ => Dispatch.IsShutDown (account.dispatches number) ∧ .exit ∉ account.dispatches number
    | .telling _ _ => True
    | .discarding number _ =>
      ∃ session, account.sessions.session? number = some session ∧ .stop session.id ∈ account.calls

/-- From an account on, a role may begin the ends of registered sessions with some identifiers. -/
def MayEnd (role : Role) (account : Account) (ids : String → Prop) : Prop :=
  ∀ later, Since role account later → later.sessions.Named → ∀ id number, ids id →
    later.sessions.number? id = some number → ¬ later.IsEnding number → role.ends number

/-- Something has got so far; a session whose stop it waits in is one that the role ends. -/
def Parted {φ α : Type} (stop? : φ → Option StopPhase) (role : Role) (account : Account) (progress : Progress φ α) :
    Prop :=
  ∀ waiting phase, progress = .waits waiting → stop? waiting = some phase →
    account.Parting phase ∧ role.ends phase.session

section Lasting

variable {role : Role} {account later : Account} {number : Nat}

theorem Since.ending (h : Since role account later) (he : account.IsEnding number) : later.IsEnding number := by
  obtain ⟨session, found, hstage⟩ := he
  obtain ⟨session', found', ha⟩ := h.sessions number session found
  exact ⟨session', found', ha.isEnding hstage⟩

theorem MayEnd.of_all {ids : String → Prop} (ends : ∀ number, role.ends number) : account.MayEnd role ids :=
  fun _ _ _ _ number _ _ _ => ends number

/-- A role that may begin the ends of all sessions. -/
theorem MayEnd.of_live {ids : String → Prop} (ends : ∀ number, ¬ account.IsEnding number → role.ends number) :
    account.MayEnd role ids := fun _ hs _ _ number _ _ hlive => ends number fun hending => hlive (hs.ending hending)

/-- A role that may begin the ends of all sessions but one, which is none of those with the identifiers. -/
theorem MayEnd.of_others {ids : String → Prop} {session : Session}
    (found : account.sessions.session? number = some session) (spared : ¬ ids session.id)
    (ends : ∀ other, other ≠ number → role.ends other) : account.MayEnd role ids := by
  intro later hs named id other hid listed _
  refine ends other ?_
  rintro rfl
  obtain ⟨current, hcurrent, advances⟩ := hs.sessions other session found
  exact spared ((advances.id.symm.trans (named.id_of_number? listed hcurrent)) ▸ hid)

theorem MayEnd.weaken {ids fewer : String → Prop} (h : account.MayEnd role ids) (hf : ∀ id, fewer id → ids id) :
    account.MayEnd role fewer := fun later hs named id number hid => h later hs named id number (hf id hid)

theorem MayEnd.since {ids : String → Prop} (h : account.MayEnd role ids) (hs : Since role account later) :
    later.MayEnd role ids := fun last hs' => h last (hs.trans hs')

/-- What holds while a stop waits lasts while others act. -/
theorem Since.parting (h : Since role account later) {phase : StopPhase} (hn : ¬ role.ends phase.session)
    (hp : account.Parting phase) : later.Parting phase := by
  obtain ⟨hending, hp⟩ := hp
  refine ⟨h.ending hending, ?_⟩
  cases phase with
  | asking number request =>
    obtain ⟨⟨id, hm⟩, hfirst⟩ := hp
    exact ⟨⟨id, h.mem hm⟩, fun he => hfirst (h.ended number hn he)⟩
  | telling number notice => trivial
  | discarding number ticket =>
    obtain ⟨session, found, called⟩ := hp
    obtain ⟨session', found', ha⟩ := h.sessions number session found
    refine ⟨session', found', ?_⟩
    rw [ha.id]
    exact h.calls.subset called

end Lasting

theorem parted_ends {φ α : Type} {stop? : φ → Option StopPhase} {role : Role} {account : Account}
    (outcome : Except Fault α) : Parted stop? role account (.ends outcome) := nofun

theorem parted_waits {φ α : Type} {stop? : φ → Option StopPhase} {role : Role} {account : Account} {waiting : φ}
    (h : ∀ phase, stop? waiting = some phase → account.Parting phase ∧ role.ends phase.session) :
    Parted stop? role account (.waits waiting : Progress φ α) := by
  intro waiting phase hp hs
  cases hp
  exact h phase hs

end Account

namespace Client

open Account

variable {σ : Type} {role : Role}

/-! ## One session -/

section Stopping

variable (client : Client (σ × List Exchange)) (setup : Setup σ) (letters : List Letter) {number : Nat}
  {session : Session}

theorem does_afterStopDiscard (ends : role.ends number) (holds : (client.account letters).Holds number session)
    (ending : (client.account letters).IsEnding number) {discarded : Progress Nat Unit}
    (hd : Discarded number session (client.account letters) discarded) :
    Does role (client.account letters) (Parted some role) (client.afterStopDiscard number session discarded) := by
  unfold afterStopDiscard
  split
  · next ticket =>
    refine does_nothing rfl (parted_waits fun phase hp => ?_)
    cases hp
    obtain ⟨current, found, advances⟩ := holds
    refine ⟨⟨ending, current, found, ?_⟩, ends⟩
    rw [advances.id]
    exact hd.waits ticket rfl
  · exact does_nothing rfl (parted_ends _)
  · obtain ⟨current, found, advances, stage⟩ := hd.stopped rfl
    have hd : Deed role (client.account letters) ((client.account letters).display session .stopped none) :=
      .display .stopped none found advances stage (Or.inl rfl) (Or.inr ends)
    refine ⟨letters, ?_, parted_ends _⟩
    rw [account_log]
    exact .single hd

theorem does_afterGoodbye (ho : (client.account letters).Coherent) (ends : role.ends number)
    (holds : (client.account letters).Holds number session) (ending : (client.account letters).IsEnding number)
    (outcome : Except Fault Unit) :
    Does role (client.account letters) (Parted some role)
      (client.afterGoodbye setup.recorded number session outcome) := by
  have hdiscard : ∀ next : Client (σ × List Exchange), Accords client next →
      Does role (client.account letters) (Parted some role)
        ((next.discard setup.recorded number session ("Session " ++ session.id ++ " stopped")).1.afterStopDiscard number
          session (next.discard setup.recorded number session ("Session " ++ session.id ++ " stopped")).2) := by
    intro next ha
    rw [← ha] at ho holds ending
    have hdiscard : Does role _ _ _ :=
      next.does_discard setup letters ho (Or.inr ends) holds ("Session " ++ session.id ++ " stopped")
    refine ha.does (hdiscard.andThen ho fun letters' _ hs hd => ?_)
    exact does_afterStopDiscard _ letters' ends (hs.holds holds) (hs.ending ending) hd
  unfold afterGoodbye
  split
  · exact does_nothing rfl (parted_ends _)
  · split
    · exact hdiscard client (.refl client)
    · exact hdiscard _ (client.accords_log _)

theorem does_afterExit (ho : (client.account letters).Coherent) (ends : role.ends number)
    (holds : (client.account letters).Holds number session) (ending : (client.account letters).IsEnding number)
    (told : Progress NoticePhase Unit) :
    Does role (client.account letters) (Parted some role) (client.afterExit setup.recorded number session told) := by
  unfold afterExit
  split
  · refine does_nothing rfl (parted_waits fun phase hp => ?_)
    cases hp
    exact ⟨⟨ending, trivial⟩, ends⟩
  · exact client.does_afterGoodbye setup letters ho ends holds ending _

/-- The server answered that it shuts down, or not: if it did it is told to exit. -/
theorem does_afterShutdown (ho : (client.account letters).Coherent) (ends : role.ends number)
    (holds : (client.account letters).Holds number session) (ending : (client.account letters).IsEnding number)
    (shut : Dispatch.IsShutDown ((client.account letters).dispatches number))
    (first : .exit ∉ (client.account letters).dispatches number) (asked : Progress RequestPhase Json) :
    Does role (client.account letters) (Parted some role)
      (client.afterShutdown setup.recorded number session asked) := by
  unfold afterShutdown
  split
  · refine does_nothing rfl (parted_waits fun phase hp => ?_)
    cases hp
    exact ⟨⟨ending, shut, first⟩, ends⟩
  · exact client.does_afterGoodbye setup letters ho ends holds ending _
  · have permits : (client.account letters).Permits role (.own session.id number .exit) := by
      obtain ⟨current, found, advances⟩ := holds
      rw [← advances.id]
      exact .exit found ends shut first
    refine (client.does_notify setup letters rfl rfl permits).andThen ho fun letters' hc hs _ => ?_
    exact does_afterExit _ setup letters' hc ends (hs.holds holds) (hs.ending ending) _

/-- The server of a session whose end has begun is asked to shut down. -/
theorem does_askToShutDown (ho : (client.account letters).Coherent) {id : String}
    (listed : client.sessions.number? id = some number) (found : client.sessions.session? number = some session)
    (ending : session.stage.isEnding = true) (first : ¬ Dispatch.IsShutDown ((client.account letters).dispatches number))
    (delay : Option Binary64) :
    Does role (client.account letters)
      (fun account _ => Dispatch.IsShutDown (account.dispatches number) ∧ .exit ∉ account.dispatches number)
      (client.request setup.recorded id "shutdown" .null delay) := by
  obtain rfl := ho.named.id_of_number? listed found
  have hreg : client.sessions.has session.id = true := Option.isSome_iff_exists.2 ⟨number, listed⟩
  let letter : RequestId → Letter := fun request => .own session.id number (.shutdown request)
  have hdeeds : ∀ request pending reply, Pending.Moves role.answers client.pending pending →
      Deeds role (client.account letters) ({ client.account letters with pending }.handOver (letter request) reply) :=
    fun request pending reply moves => .tail (.single (.pending moves)) (.hand reply (.shutdown request found ending first))
  refine (client.does_request setup letters delay ho hreg ho.numbered (fun _ => rfl) (fun _ => rfl) hdeeds).weaken
    fun account ⟨request, hl, _⟩ => ?_
  rw [dispatches_concat hl]
  refine ⟨⟨request, List.mem_append_right _ (List.mem_singleton_self _)⟩, fun hm => ?_⟩
  rcases List.mem_append.1 hm with hm | hm
  · exact first ((ho.inOrder number).isShutDown hm)
  · cases List.mem_singleton.1 hm

/-- A session is stopped whose end has not begun. -/
theorem does_stop (ho : (client.account letters).Coherent) (id : String)
    (ends : (client.account letters).MayEnd role (id = ·)) :
    Does role (client.account letters) (Parted some role) (client.stop setup.recorded id) := by
  unfold stop
  split
  · next number session listed hget =>
    have found : client.sessions.session? number = some session := SessionRegistry.session?_of_get? hget listed
    split
    · exact does_nothing rfl (parted_ends _)
    · next hlive =>
      have hends : role.ends number := by
        refine ends _ (.refl ho.numbered) ho.named id number rfl listed fun ⟨current, hcurrent, hending⟩ => hlive ?_
        cases found.symm.trans hcurrent
        exact hending
      have ha := client.accords_log (.info ("Stopping server: " ++ id))
      let shut := (client.log (.info ("Stopping server: " ++ id))).setStage number .shuttingDown
      have hd : Deeds role ((client.log (.info ("Stopping server: " ++ id))).account letters) (shut.account letters) :=
        .single (.shut found (Bool.eq_false_iff.2 hlive) hends)
      rw [ha] at hd
      obtain ⟨hs, hc⟩ := hd.since_coherent ho
      have hreached : shut.sessions.session? number = some { session with stage := .shuttingDown } := by
        change (client.sessions.modify number _).session? number = _
        rw [SessionRegistry.session?_modify, if_pos rfl, found, Option.map_some]
      have hask : Does role _ _ _ := shut.does_askToShutDown setup letters hc listed hreached rfl
        (fun hshut => hlive (ho.shut number session hshut found)) (some shut.settings.shutdownTimeout.seconds)
      refine (hask.andThen hc fun letters' hc' hs' ⟨hshut, hfirst⟩ => ?_).after hd
      have holds : (client.account letters).Holds number session := ⟨session, found, .refl session⟩
      exact does_afterShutdown _ setup letters' hc' hends (hs'.holds (hs.holds holds))
        (hs'.ending ⟨_, hreached, rfl⟩) hshut hfirst _
  · exact does_nothing rfl (parted_ends _)

/-- The stop of a session goes on. -/
theorem does_resumeStop (ho : (client.account letters).Coherent) (cancelled : Bool) {phase : StopPhase}
    (ends : role.ends phase.session) (parting : (client.account letters).Parting phase) :
    Does role (client.account letters) (Parted some role) (client.resumeStop setup.recorded cancelled phase) := by
  obtain ⟨⟨session, found, hstage⟩, hparting⟩ := parting
  have hsession : client.sessions.session? phase.session = some session := found
  have ending : (client.account letters).IsEnding phase.session := ⟨session, found, hstage⟩
  have holds : (client.account letters).Holds phase.session session := ⟨session, found, .refl session⟩
  unfold resumeStop
  cases phase with
  | asking number request =>
    dsimp only [StopPhase.session] at *
    rw [hsession]
    refine (client.does_resumeRequest setup letters ho cancelled request).andThen ho fun letters' hc hs ⟨hl, _⟩ => ?_
    obtain ⟨⟨id, hm⟩, hfirst⟩ := hparting
    refine does_afterShutdown _ setup letters' hc ends (hs.holds holds) (hs.ending ending) ⟨id, hs.mem hm⟩ ?_ _
    rw [dispatches, hl]
    exact hfirst
  | telling number notice =>
    dsimp only [StopPhase.session] at *
    rw [hsession]
    exact (client.does_resumeNotice setup letters ho cancelled notice).andThen ho fun letters' hc hs _ =>
      does_afterExit _ setup letters' hc ends (hs.holds holds) (hs.ending ending) _
  | discarding number ticket =>
    dsimp only [StopPhase.session] at *
    rw [hsession]
    obtain ⟨current, hcurrent, called⟩ := hparting
    cases found.symm.trans hcurrent
    exact (client.does_resumeDiscard setup letters ho cancelled (Or.inr ends) holds called).andThen ho
      fun letters' _ hs hd => does_afterStopDiscard _ letters' ends (hs.holds holds) (hs.ending ending) hd

end Stopping

/-! ## Several sessions -/

section Several

variable {client : Client (σ × List Exchange)} (setup : Setup σ) {letters : List Letter}

theorem does_stopEach (ho : (client.account letters).Coherent) (ids : List String)
    (ends : (client.account letters).MayEnd role (· ∈ ids)) :
    Does role (client.account letters) (Parted (fun phase => some phase.current) role)
      (client.stopEach setup.recorded ids) := by
  induction ids generalizing client letters with
  | nil => exact does_nothing rfl (parted_ends _)
  | cons id rest ih =>
    have hfirst : (client.account letters).MayEnd role (id = ·) :=
      ends.weaken fun _ hid => List.mem_cons.2 (Or.inl hid.symm)
    refine (client.does_stop setup letters ho id hfirst).andThen ho fun letters' hc hs hp => ?_
    unfold stopEach
    split
    · next stopped current heq =>
      rw [heq] at hp ⊢
      exact does_nothing rfl (parted_waits fun phase hcurrent => hp current phase rfl hcurrent)
    · next stopped fault heq =>
      rw [heq]
      exact does_nothing rfl (parted_ends _)
    · next stopped heq =>
      rw [heq] at hc hs ⊢
      exact ih hc ((ends.weaken fun _ => List.mem_cons_of_mem id).since hs)

theorem does_resumeStopAll (ho : (client.account letters).Coherent) (cancelled : Bool) {phase : StopAllPhase}
    (ends : (client.account letters).MayEnd role (· ∈ phase.rest)) (own : role.ends phase.current.session)
    (parting : (client.account letters).Parting phase.current) :
    Does role (client.account letters) (Parted (fun phase => some phase.current) role)
      (client.resumeStopAll setup.recorded cancelled phase) := by
  refine (client.does_resumeStop setup letters ho cancelled own parting).andThen ho fun letters' hc hs hp => ?_
  unfold resumeStopAll
  split
  · next stopped current heq =>
    rw [heq] at hp ⊢
    exact does_nothing rfl (parted_waits fun phase hcurrent => hp current phase rfl hcurrent)
  · next stopped fault heq =>
    rw [heq]
    exact does_nothing rfl (parted_ends _)
  · next stopped heq =>
    rw [heq] at hc hs ⊢
    exact does_stopEach setup hc phase.rest (ends.since hs)

/-! ## Closing -/

theorem does_closeScope (ho : (client.account letters).Coherent) (scope : Scope) :
    Does role (client.account letters) (Parted ClosePhase.stop? role)
      ((client.closeScope scope, .ends (.ok ())) : Client (σ × List Exchange) × Progress ClosePhase Unit) := by
  have hm : Pending.Moves role.answers client.pending
      (client.pending.cancelAll "LSP service shutting down" none).1 := ho.numbered.moves_cancelAll _ none
  cases scope <;> exact ⟨letters, .single (.pending hm), parted_ends _⟩

theorem accords_gather (client : Client (σ × List Exchange)) (ticket attempt : Nat) :
    Accords client (client.gather ticket attempt) := by
  unfold gather
  split <;> exact .refl client

theorem accords_gathers (ticket : Nat) (attempts : List Nat) (client : Client (σ × List Exchange)) :
    Accords client (attempts.foldl (fun client attempt => client.gather ticket attempt) client) := by
  induction attempts generalizing client with
  | nil => exact .refl client
  | cons attempt attempts ih => exact (client.accords_gather ticket attempt).trans (ih _)

theorem does_afterStopAll (ho : (client.account letters).Coherent) (scope : Scope)
    {stopped : Progress StopAllPhase Unit}
    (hp : Parted (fun phase => some phase.current) role (client.account letters) stopped) :
    Does role (client.account letters) (Parted ClosePhase.stop? role) (client.afterStopAll scope stopped) := by
  unfold afterStopAll
  split
  · next phase => exact does_nothing rfl (parted_waits fun current hc => hp phase current rfl hc)
  · exact does_nothing rfl (parted_ends _)
  · split
    · exact does_closeScope ho scope
    · have hgathers := accords_gathers client.tickets client.starting.values
        { client with
          tickets := client.tickets + 1
          gathers := client.gathers.set client.tickets client.starting.values.length }
      exact does_nothing (hgathers letters) (parted_waits nofun)

theorem does_close (ho : (client.account letters).Coherent)
    (ends : (client.account letters).MayEnd role fun _ => True) (scope : Scope) :
    Does role (client.account letters) (Parted ClosePhase.stop? role) (client.close setup.recorded scope) := by
  have ha : Accords client { client.log (.info "Cleaning up LSP session manager") with isClosing := true } :=
    client.accords_log _
  rw [← ha letters] at ho ends
  exact ha.does ((does_stopEach setup ho _ (ends.weaken fun _ _ => trivial)).andThen ho fun letters' hc _ hp => does_afterStopAll hc scope hp)

theorem does_resumeClose (ho : (client.account letters).Coherent)
    (ends : (client.account letters).MayEnd role fun _ => True) (cancelled : Bool) (scope : Scope)
    {phase : ClosePhase}
    (own : ∀ stop, phase.stop? = some stop → (client.account letters).Parting stop ∧ role.ends stop.session) :
    Does role (client.account letters) (Parted ClosePhase.stop? role)
      (client.resumeClose setup.recorded cancelled scope phase) := by
  cases phase with
  | stopping stops =>
    obtain ⟨parting, hends⟩ := own stops.current rfl
    exact (does_resumeStopAll setup ho cancelled (ends.weaken fun _ _ => trivial) hends parting).andThen ho fun letters' hc _ hp =>
      does_afterStopAll hc scope hp
  | gathering ticket attempts =>
    unfold resumeClose
    dsimp only
    split
    · exact does_nothing rfl (parted_ends _)
    · exact does_closeScope ho scope

/-! ## Visits -/

theorem does_afterDeparture (scope : Scope) (started : Except Fault String) {closed : Progress ClosePhase Unit}
    (hp : Parted ClosePhase.stop? role (client.account letters) closed) :
    Does role (client.account letters) (Parted Activity.stop? role) (client.afterDeparture scope started closed) := by
  unfold afterDeparture
  split
  · next phase => exact does_nothing rfl (parted_waits fun stop hs => hp phase stop rfl hs)
  · exact does_nothing rfl (parted_ends _)
  · exact does_nothing rfl (parted_ends _)

theorem does_afterArrival (ho : (client.account letters).Coherent)
    (ends : (client.account letters).MayEnd role fun _ => True) (scope : Scope)
    (started : Progress JoinPhase String) :
    Does role (client.account letters) (Parted Activity.stop? role)
      (client.afterArrival setup.recorded scope started) := by
  cases started with
  | waits phase => exact does_nothing rfl (parted_waits nofun)
  | ends started =>
    exact (does_close setup ho ends scope).andThen ho fun letters' _ _ hp => does_afterDeparture scope started hp

end Several

/-! ## Operations and activities -/

section Operations

variable {φ α : Type} {client : Client (σ × List Exchange)} (setup : Setup σ) {letters : List Letter}

/-- A part of an operation that waits in a stop lets the operation wait in it. -/
theorem Does.silently {origin : Account} {stop? : φ → Option StopPhase} {activity : φ → Activity}
    {step : Client (σ × List Exchange) × Progress φ Unit} (h : Does role origin (Parted stop? role) step)
    (hs : ∀ phase, (activity phase).stop? = stop? phase) :
    Does role origin (Parted Activity.stop? role) (Client.silently activity step) := by
  refine h.translate (fun account phase _ hp => ?_) fun _ _ _ _ => parted_ends _
  exact parted_waits fun stop hstop => hp phase stop rfl (hs phase ▸ hstop)

/-- Something waits in no stop. -/
theorem Does.unparted {origin : Account} {post : Account → Progress φ α → Prop}
    {step : Client (σ × List Exchange) × Progress φ α} {next : Client (σ × List Exchange) × Progress Activity Answer}
    (h : Does role origin post step) (ha : Accords step.1 next.1)
    (hs : ∀ activity, next.2 = .waits activity → activity.stop? = none) :
    Does role origin (Parted Activity.stop? role) next := by
  obtain ⟨letters, d, -⟩ := h
  refine ⟨letters, by rw [ha]; exact d, fun activity stop hw hstop => ?_⟩
  rw [hs activity hw] at hstop
  cases hstop

/-- A part of an operation that waits in no stop. -/
theorem Does.part {origin : Account} {post : Account → Progress φ α → Prop}
    {step : Client (σ × List Exchange) × Progress φ α} (h : Does role origin post step) {activity : φ → Activity}
    (hs : ∀ phase, (activity phase).stop? = none) (g : α → Answer) :
    Does role origin (Parted Activity.stop? role) (step.1, (step.2.inPhase activity).map g) := by
  refine h.unparted (.refl _) fun waiting hw => ?_
  obtain ⟨client, phase | outcome⟩ := step
  · cases hw
    exact hs phase
  · cases hw

theorem Does.queried {origin : Account} {step : Client (σ × List Exchange) × Progress QueryPhase Answer}
    (h : Does role origin Anything step) : Does role origin (Parted Activity.stop? role) (Client.queried step) := by
  refine h.unparted (.refl _) fun activity hw => ?_
  obtain ⟨client, phase | outcome⟩ := step
  · cases hw
    rfl
  · cases hw

theorem Does.afterServerInspection {origin : Account} {post : Account → Progress Nat Availability → Prop}
    {step : Client (σ × List Exchange) × Progress Nat Availability} (h : Does role origin post step)
    (language : String) :
    Does role origin (Parted Activity.stop? role) (step.1.afterServerInspection language step.2) := by
  refine h.unparted (accords_afterServerInspection _ language _) fun activity hw => ?_
  obtain ⟨client, ticket | outcome⟩ := step
  · cases hw
    rfl
  · cases hw

theorem Does.afterDownload {origin : Account} {post : Account → Progress Nat String → Prop}
    {step : Client (σ × List Exchange) × Progress Nat String} (h : Does role origin post step) (language : String) :
    Does role origin (Parted Activity.stop? role) (step.1.afterDownload language step.2) := by
  refine h.unparted (accords_afterDownload _ language _) fun activity hw => ?_
  obtain ⟨client, ticket | fault | path⟩ := step
  · cases hw
    rfl
  · cases hw
  · cases hw

theorem does_withBinding {operation : Binding → Client (σ × List Exchange) × Progress Activity Answer} {number : Nat}
    (h : ∀ binding, Does role (client.account letters) (Parted Activity.stop? role) (operation binding)) :
    Does role (client.account letters) (Parted Activity.stop? role) (client.withBinding number operation) := by
  unfold withBinding
  split
  · exact h _
  · exact does_nothing rfl (parted_ends _)

/-- **An operation begins**: it ends no session but those that it is called to end and whose end has not begun, and hands
over no letter that is not asked for with it. -/
theorem does_beginOperation (ho : (client.account letters).Coherent) {operation : Operation}
    (ends : (client.account letters).MayEnd role (operation.Ends client.sessions ·))
    (writes : ∀ letter, operation.Writes letter → role.writes letter) :
    Does role (client.account letters) (Parted Activity.stop? role)
      (client.beginOperation setup.recorded operation) := by
  have hnotice : ∀ use {step : Client (σ × List Exchange) × Progress NoticePhase Unit},
      Does role (client.account letters) Anything step →
      Does role (client.account letters) (Parted Activity.stop? role) (silently (.noticing use) step) :=
    fun use step h => h.part (fun _ => rfl) _
  have hquery : ∀ {query : Query} {id method : String} {params : Members}, operation.question? = some method →
      Does role (client.account letters) Anything (client.query setup.recorded query id method params) :=
    fun asks => does_query setup ho _ fun _ _ => writes _ (.query asks)
  cases operation with
  | enter scope => exact does_nothing (client.accords_openScope scope letters) (parted_ends _)
  | close scope => exact (does_close setup ho ends scope).silently fun _ => rfl
  | visit scope language root =>
    have ha := (client.accords_openScope scope).trans ((client.openScope scope).accords_start setup language root)
    rw [← ha letters] at ho ends
    exact ha.does (does_afterArrival setup ho ends scope _)
  | start language root => exact (client.accords_start setup language root).anything.part (fun _ => rfl) _
  | stop id => exact (does_stop client setup letters ho id ends).silently fun _ => rfl
  | stopAll => exact (does_stopEach setup ho _ ends).silently fun _ => rfl
  | openDocument id path language text => exact hnotice .plain (does_openDocument setup id path language text)
  | changeDocument id path text => exact hnotice .plain (does_changeDocument setup id path text)
  | closeDocument id path => exact hnotice (.closing path) (does_closeDocument setup id path)
  | request id method params delay =>
    exact (does_asking setup ho delay fun _ _ => writes _ .request).part (fun _ => rfl) _
  | notify id method params =>
    have permits : (client.account letters).Permits role (.passed id method params) := .passed (writes _ .notify)
    exact (client.does_notifyIfPrintable setup letters rfl rfl permits).part (fun _ => rfl) _
  | hover _ _ _ | definition _ _ _ | references _ _ _ _ | symbols _ _ => exact (hquery rfl).queried
  | inspect language =>
    have hd : Does role _ _ _ := client.does_ask setup letters (.inspect language) rfl nofun
    exact hd.afterServerInspection language
  | download language =>
    have ha := client.accords_log (.info ("Downloading server for " ++ language))
    have hd : Does role _ _ _ :=
      (client.log (.info ("Downloading server for " ++ language))).does_ask setup letters (.download language) rfl nofun
    exact ha.does (hd.afterDownload language)
  | lookupDefinition path position =>
    exact (does_lookupDefinition setup ho path position fun _ _ _ _ => writes _ (.query rfl)).queried
  | lookupReferences path position =>
    exact (does_lookupReferences setup ho path position fun _ _ _ _ => writes _ (.query rfl)).queried
  | connect number =>
    exact does_withBinding fun binding =>
      (client.accords_connect setup number binding).anything.part (fun _ => rfl) _
  | disconnect number => exact does_withBinding fun binding => hnotice _ (does_closeBinding setup number binding true)
  | openBinding number text =>
    exact does_withBinding fun binding => hnotice _ (does_openBinding setup number binding text)
  | updateBinding number text => exact does_withBinding fun binding => hnotice _ (does_updateBinding setup binding text)
  | closeBinding number => exact does_withBinding fun binding => hnotice _ (does_closeBinding setup number binding false)
  | bindingHover number position =>
    exact does_withBinding fun binding =>
      (does_bindingHover setup ho binding position fun _ _ _ _ => writes _ (.query rfl)).queried
  | bindingDefinition number position =>
    exact does_withBinding fun binding =>
      (does_bindingDefinition setup ho binding position fun _ _ _ _ => writes _ (.query rfl)).queried
  | bindingReferences number position =>
    exact does_withBinding fun binding =>
      (does_bindingReferences setup ho binding position fun _ _ _ _ => writes _ (.query rfl)).queried

/-- **An activity goes on**: it ends no session but the one whose stop it waits in and those that it is still to end. -/
theorem does_resumeActivity (ho : (client.account letters).Coherent) (cancelled : Bool) {activity : Activity}
    (ends : (client.account letters).MayEnd role (activity.Ends ·))
    (own : ∀ phase, activity.stop? = some phase →
      (client.account letters).Parting phase ∧ role.ends phase.session) :
    Does role (client.account letters) (Parted Activity.stop? role)
      (client.resumeActivity setup.recorded cancelled activity) := by
  cases activity with
  | joining phase => exact (client.accords_resumeJoin cancelled phase).anything.part (fun _ => rfl) _
  | connecting number phase =>
    exact does_withBinding fun binding =>
      (client.accords_resumeConnect cancelled number binding phase).anything.part (fun _ => rfl) _
  | stopping phase =>
    obtain ⟨parting, hends⟩ := own phase rfl
    exact (client.does_resumeStop setup letters ho cancelled hends parting).silently fun _ => rfl
  | stoppingAll phase =>
    obtain ⟨parting, hends⟩ := own phase.current rfl
    exact (does_resumeStopAll setup ho cancelled ends hends parting).silently fun _ => rfl
  | closing scope phase => exact (does_resumeClose setup ho ends cancelled scope own).silently fun _ => rfl
  | arriving scope phase =>
    have ha := client.accords_resumeJoin cancelled phase
    rw [← ha letters] at ho ends
    exact ha.does (does_afterArrival setup ho ends scope _)
  | departing scope started phase =>
    exact (does_resumeClose setup ho ends cancelled scope own).andThen ho fun _ _ _ hp =>
      does_afterDeparture scope started hp
  | noticing use phase => exact (does_resumeUse setup ho cancelled phase use).part (fun _ => rfl) _
  | requesting phase => exact (client.does_resumeRequest setup letters ho cancelled phase).part (fun _ => rfl) _
  | querying phase =>
    have hd : Does role _ _ _ := client.does_resumeRequest setup letters ho cancelled phase.request
    exact (hd.follow (accords_afterQuery _ phase.query _)).queried
  | inspecting ticket language =>
    have hd : Does role _ _ _ := client.does_goOn setup letters cancelled (.inspect language)
    exact hd.afterServerInspection language
  | downloading ticket language =>
    have hd : Does role _ _ _ := client.does_goOn setup letters cancelled (.download language)
    exact hd.afterDownload language

end Operations

/-! ## What an operation is still to end -/

section Ends

variable {σ φ α : Type} {ids : String → Prop} {setup : Setup σ}

/-- An operation that has got so far is to end no sessions but some. -/
def EndsOnly (ids : String → Prop) (progress : Progress Activity Answer) : Prop :=
  ∀ activity id, progress = .waits activity → activity.Ends id → ids id

theorem endsOnly_ends (outcome : Except Fault Answer) : EndsOnly ids (.ends outcome) := by
  rintro activity id ⟨⟩

theorem endsOnly_part {progress : Progress φ α} {activity : φ → Activity}
    (h : ∀ phase, progress = .waits phase → ∀ id, (activity phase).Ends id → ids id) (g : α → Answer) :
    EndsOnly ids ((progress.inPhase activity).map g) := by
  intro waiting id hw he
  cases progress with
  | waits phase =>
    cases hw
    exact h phase rfl id he
  | ends outcome => cases hw

/-- A part that has nothing to do with the ends of sessions. -/
theorem endsOnly_harmless {progress : Progress φ α} {activity : φ → Activity} (h : ∀ phase id, ¬ (activity phase).Ends id)
    (g : α → Answer) : EndsOnly ids ((progress.inPhase activity).map g) :=
  endsOnly_part (fun phase _ id he => absurd he (h phase id)) g

theorem endsOnly_queried (step : Client σ × Progress QueryPhase Answer) : EndsOnly ids (queried step).2 := by
  obtain ⟨client, phase | outcome⟩ := step
  · rintro activity id ⟨⟩ ⟨⟩
  · exact endsOnly_ends _

theorem endsOnly_afterServerInspection (client : Client σ) (language : String) (known : Progress Nat Availability) :
    EndsOnly ids (client.afterServerInspection language known).2 := by
  cases known with
  | waits ticket => rintro activity id ⟨⟩ ⟨⟩
  | ends outcome => exact endsOnly_ends _

theorem endsOnly_afterDownload (client : Client σ) (language : String) (got : Progress Nat String) :
    EndsOnly ids (client.afterDownload language got).2 := by
  obtain ticket | fault | path := got
  · rintro activity id ⟨⟩ ⟨⟩
  · exact endsOnly_ends _
  · exact endsOnly_ends _

theorem endsOnly_withBinding {client : Client σ} {f : Binding → Client σ × Progress Activity Answer} {number : Nat}
    (h : ∀ binding, EndsOnly ids (f binding).2) : EndsOnly ids (client.withBinding number f).2 := by
  unfold withBinding
  split
  · exact h _
  · exact endsOnly_ends _

/-- Sessions are stopped one after the other: those that are still to come are some of them. -/
theorem rest_stopEach {sessions : List String} {client : Client σ} {phase : StopAllPhase}
    (h : (client.stopEach setup sessions).2 = .waits phase) : ∀ id ∈ phase.rest, id ∈ sessions := by
  induction sessions generalizing client with
  | nil => cases h
  | cons first rest ih =>
    unfold stopEach at h
    split at h
    · cases h
      exact fun id => List.mem_cons_of_mem first
    · cases h
    · exact fun id hid => List.mem_cons_of_mem first (ih h id hid)

theorem rest_resumeStopAll {client : Client σ} {cancelled : Bool} {before phase : StopAllPhase}
    (h : (client.resumeStopAll setup cancelled before).2 = .waits phase) : ∀ id ∈ phase.rest, id ∈ before.rest := by
  unfold resumeStopAll at h
  split at h
  · cases h
    exact fun _ hid => hid
  · cases h
  · exact rest_stopEach h

/-- **An operation that waits is to end no sessions but those that it was called to end.** -/
theorem endsOnly_beginOperation (client : Client σ) (operation : Operation) :
    EndsOnly (operation.EndsLater client.sessions ·) (client.beginOperation setup operation).2 := by
  cases operation with
  | enter _ => exact endsOnly_ends _
  | close _ | visit _ _ _ => exact fun _ _ _ _ => trivial
  | stopAll =>
    have hrest : ∀ phase, (client.stopAll setup).2 = .waits phase → ∀ id, (Activity.stoppingAll phase).Ends id →
        id ∈ client.sessions.ids := fun _ hw => rest_stopEach hw
    exact endsOnly_part hrest _
  | start language root => exact endsOnly_harmless (fun _ _ => id) _
  | stop session => exact endsOnly_harmless (fun _ _ => id) _
  | openDocument _ _ _ _ | changeDocument _ _ _ | closeDocument _ _ | notify _ _ _ => exact endsOnly_harmless (fun _ _ => id) _
  | request _ _ _ _ => exact endsOnly_harmless (fun _ _ => id) _
  | hover _ _ _ | definition _ _ _ | references _ _ _ _ | symbols _ _ | lookupDefinition _ _
  | lookupReferences _ _ =>
    exact endsOnly_queried _
  | inspect language => exact endsOnly_afterServerInspection _ language _
  | download language => exact endsOnly_afterDownload _ language _
  | connect _ => exact endsOnly_withBinding fun _ => endsOnly_harmless (fun _ _ => id) _
  | disconnect _ | openBinding _ _ | updateBinding _ _ | closeBinding _ =>
    exact endsOnly_withBinding fun _ => endsOnly_harmless (fun _ _ => id) _
  | bindingHover _ _ | bindingDefinition _ _ | bindingReferences _ _ =>
    exact endsOnly_withBinding fun _ => endsOnly_queried _

/-- **An activity that goes on is to end no sessions but those that it was to end before.** -/
theorem endsOnly_resumeActivity (client : Client σ) (cancelled : Bool) (activity : Activity) :
    EndsOnly (activity.Ends ·) (client.resumeActivity setup cancelled activity).2 := by
  cases activity with
  | closing _ _ | arriving _ _ | departing _ _ _ => exact fun _ _ _ _ => trivial
  | stoppingAll phase =>
    have hrest : ∀ later, (client.resumeStopAll setup cancelled phase).2 = .waits later → ∀ id,
        (Activity.stoppingAll later).Ends id → id ∈ phase.rest := fun _ hw => rest_resumeStopAll hw
    exact endsOnly_part hrest _
  | joining _ => exact endsOnly_harmless (fun _ _ => id) _
  | stopping _ => exact endsOnly_harmless (fun _ _ => id) _
  | noticing use _ => exact endsOnly_harmless (fun _ _ => id) _
  | requesting _ => exact endsOnly_harmless (fun _ _ => id) _
  | connecting number _ => exact endsOnly_withBinding fun _ => endsOnly_harmless (fun _ _ => id) _
  | querying _ => exact endsOnly_queried _
  | inspecting _ language => exact endsOnly_afterServerInspection _ language _
  | downloading _ language => exact endsOnly_afterDownload _ language _

end Ends

end Client

end LanguageSessions
