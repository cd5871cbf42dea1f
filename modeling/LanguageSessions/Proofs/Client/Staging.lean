import LanguageSessions.Proofs.Client.Farewells
import LanguageSessions.Proofs.Client.Scenes

/-!
# Scenes of starts and stops

An attempt adds its session and brings it to be ready; it gives back the identifier of a session that has come so far.
Whoever takes a session apart ends its pending requests first. From then on, while the stop of its process is waited
for, the session is halted (`Halting`): requests that are still made of it are late, and so the session is taken out
with none but late ones.
-/

namespace LanguageSessions

/-! ## Sessions that are being taken apart -/

/-- The session whose process an attempt waits to be stopped, by number. -/
def AttemptPhase.discarded? : AttemptPhase → Option Nat
  | .discarding _ number _ => some number
  | _ => none

/-- The session whose process a stop waits to be stopped, by number. -/
def StopPhase.discarded? : StopPhase → Option Nat
  | .discarding number _ => some number
  | _ => none

/-- The session whose process the stop of several sessions waits to be stopped, by number. -/
def StopAllPhase.discarded? (phase : StopAllPhase) : Option Nat := phase.current.discarded?

/-- The session whose process the closing of a client waits to be stopped, by number. -/
def ClosePhase.discarded? (phase : ClosePhase) : Option Nat := phase.stop?.bind StopPhase.discarded?

/-- The session whose process an activity waits to be stopped, by number. -/
def Activity.discarded? (activity : Activity) : Option Nat := activity.stop?.bind StopPhase.discarded?

namespace Scene

/-- The session with a number is halted. -/
def Halts (scene : Scene) (number : Nat) : Prop := ∃ id, scene.Bears number id ∧ scene.Halted id

/-- A session is halted while it is waited for that its process stops. -/
def Halting {φ α : Type} (discarded? : φ → Option Nat) (scene : Scene) (progress : Progress φ α) : Prop :=
  ∀ phase number, progress = .waits phase → discarded? phase = some number → scene.Halts number

/-- An attempt has got so far. -/
structure Staged (scene : Scene) (progress : Progress AttemptPhase String) : Prop where
  halting : Halting AttemptPhase.discarded? scene progress
  attains : ∀ id, progress = .ends (.ok id) → scene.Attains id

end Scene

theorem Changes.halts {warrant : Warrant} {before after : Scene} {number : Nat} (h : Changes warrant before after)
    (hh : before.Halts number) : after.Halts number := by
  obtain ⟨id, bears, halted⟩ := hh
  exact ⟨id, bears.advances h.advances, h.halted halted⟩

namespace Scene

variable {φ α : Type} {discarded? : φ → Option Nat} {scene : Scene}

theorem halting_ends (outcome : Except Fault α) : Halting discarded? scene (.ends outcome) := nofun

theorem halting_waits {phase : φ} (h : ∀ number, discarded? phase = some number → scene.Halts number) :
    Halting discarded? scene (.waits phase : Progress φ α) := by
  intro phase number hw
  cases hw
  exact h number

theorem staged_fails (fault : Fault) : scene.Staged (.ends (.error fault)) := ⟨halting_ends _, nofun⟩

/-- An attempt waits that does not take its session apart. -/
theorem staged_waits {phase : AttemptPhase} (h : phase.discarded? = none) : scene.Staged (.waits phase) := by
  refine ⟨halting_waits fun number hn => ?_, nofun⟩
  rw [h] at hn
  cases hn

end Scene

namespace Client

open Scene

variable {σ : Type} {warrant : Warrant}

/-! ## The handshake -/

section Shaking

variable (client : Client (σ × List Exchange)) (setup : Setup σ) (letters : List Letter)

theorem makes_configure (number : Nat) (session : Session) :
    Makes warrant (client.scene letters) Whatever (client.configure setup.recorded session) := by
  unfold configure
  split
  · exact makes_nothing rfl trivial
  · next server _ =>
    split
    · exact makes_nothing rfl trivial
    · have hn : Makes warrant _ _ _ := client.makes_notifyIfPrintable setup letters
        (.own session.id number (.configuration server.settings)) rfl rfl rfl False.elim
      exact hn.follow (.refl _)

theorem makes_afterTelling (number : Nat) (session : Session) (told : Progress NoticePhase Unit) :
    Makes warrant (client.scene letters) Whatever (client.afterTelling setup.recorded session told) := by
  unfold afterTelling
  split
  · exact makes_nothing rfl trivial
  · exact makes_nothing rfl trivial
  · exact client.makes_configure setup letters number session

/-- The server is told that the session is set up, and then its settings. -/
theorem makes_tell (number : Nat) (session : Session) :
    Makes warrant (client.scene letters) Whatever
      ((client.notify setup.recorded session.id "initialized" (.object [])).1.afterTelling setup.recorded session
        (client.notify setup.recorded session.id "initialized" (.object [])).2) := by
  have hn : Makes warrant _ _ _ :=
    client.makes_notify setup letters (.own session.id number .initialized) rfl rfl rfl False.elim
  exact hn.andThen fun letters' _ _ => makes_afterTelling _ setup letters' number session _

/-- The server was asked what it can do, and said so or not. -/
theorem makes_afterAsking (number : Nat) (session : Session) (asked : Progress RequestPhase Json) :
    Makes warrant (client.scene letters) Whatever (client.afterAsking setup.recorded number session asked) := by
  unfold afterAsking
  split
  · exact makes_nothing rfl trivial
  · exact makes_nothing rfl trivial
  · dsimp only
    split
    · next capabilities _ =>
      refine (makes_tell _ setup letters number session).after ?_
      exact client.changes_changeSession letters number fun session => ⟨(advances_capabilities session _).1, rfl⟩
    · exact client.makes_tell setup letters number session

theorem makes_shakeHands (number : Nat) (session : Session) :
    Makes warrant (client.scene letters) Whatever (client.shakeHands setup.recorded number session) := by
  let params := Handshake.parameters client.settings session.root (setup.recorded.servers.get? session.language)
  have hr : Makes warrant _ _ _ :=
    client.makes_requestIfPrintable setup letters (fun id => .own session.id number (.opening id params)) none
      (fun _ => rfl) (fun _ => rfl) (fun _ => rfl) fun _ => False.elim
  exact hr.andThen fun letters' _ _ => makes_afterAsking _ setup letters' number session _

theorem makes_resumeHandshake (number : Nat) (session : Session) (cancelled : Bool) (phase : HandshakePhase) :
    Makes warrant (client.scene letters) Whatever
      (client.resumeHandshake setup.recorded cancelled number session phase) := by
  cases phase with
  | asking request =>
    exact (client.makes_resumeRequest setup letters cancelled request).andThen fun letters' _ _ =>
      makes_afterAsking _ setup letters' number session _
  | telling notice =>
    exact (client.makes_resumeNotice setup letters cancelled notice).andThen fun letters' _ _ =>
      makes_afterTelling _ setup letters' number session _
  | configuring notice => exact (client.makes_resumeNotice setup letters cancelled notice).follow (.refl _)

end Shaking

/-! ## Taking a session apart -/

section Discarding

variable (client : Client (σ × List Exchange)) (setup : Setup σ) (letters : List Letter) {number : Nat}
  {session : Session}

/-- A session is taken out whose pending requests are late. -/
theorem change_drop (bears : (client.scene letters).Bears number session.id)
    (overdue : (client.scene letters).Overdue session.id) :
    Change warrant (client.scene letters)
      (({ client with
          routes := client.routes.unregisterSession session.id
          sessions := client.sessions.remove session.id }.setStage number .stopped).scene letters) := by
  obtain ⟨current, found, hid⟩ := bears
  rw [← hid] at overdue ⊢
  exact .dropped found overdue

/-- The process of a session was stopped, or not. -/
theorem makes_afterStopCall (bears : (client.scene letters).Bears number session.id)
    (overdue : (client.scene letters).Overdue session.id) {stopped : Progress Nat Unit}
    (waited : ∀ ticket, stopped = .waits ticket → ⟨.stop session.id, .waits⟩ ∈ (client.scene letters).record) :
    Makes warrant (client.scene letters)
      (fun scene progress => ∀ ticket, progress = .waits ticket → scene.Halted session.id)
      (client.afterStopCall number session stopped) := by
  unfold afterStopCall
  split
  · next ticket => exact makes_nothing rfl fun _ _ => ⟨waited ticket rfl, overdue⟩
  · exact makes_nothing rfl nofun
  · next outcome _ =>
    cases outcome with
    | ok _ => exact makes_change (client.change_drop letters bears overdue) nofun
    | error fault =>
      have hu := client.unseen_log (.warning ("Error stopping server process " ++ session.id ++ ": " ++ fault.message))
      refine hu.makes (makes_change (change_drop _ letters ?_ ?_) nofun) <;> rw [hu] <;> assumption

/-- The pending requests of a session end, and then its process is stopped. -/
theorem makes_discard (bears : (client.scene letters).Bears number session.id) (reason : String) :
    Makes warrant (client.scene letters)
      (fun scene progress => ∀ ticket, progress = .waits ticket → scene.Halted session.id)
      (client.discard setup.recorded number session reason) := by
  have hentries := client.pending.mem_entries_cancelAll reason session.id
  let cleared := client.setPending (client.pending.cancelAll reason (some session.id)).1
  have hcleared : Change warrant (client.scene letters) (cleared.scene letters) :=
    .settled fun entry hm => (hentries entry hm).1
  refine Makes.after (.single hcleared) ((cleared.makes_ask setup letters (.stop session.id) rfl).andThen ?_)
  intro letters' h hask
  obtain ⟨-, hwaiting, hwaits⟩ := hask
  refine makes_afterStopCall _ letters' (bears.advances (hcleared.advances.trans h.advances)) ?_ hwaits
  -- None of the requests of the session is left.
  intro request entry hm howner
  rw [hwaiting] at hm
  exact absurd howner (hentries _ hm).2

theorem makes_resumeDiscard (bears : (client.scene letters).Bears number session.id)
    (halted : (client.scene letters).Halted session.id) (cancelled : Bool) :
    Makes warrant (client.scene letters)
      (fun scene progress => ∀ ticket, progress = .waits ticket → scene.Halted session.id)
      (client.resumeDiscard setup.recorded cancelled number session) := by
  refine (client.makes_goOn setup letters cancelled (.stop session.id)).andThen fun letters' h _ => ?_
  have hhalted := h.halted halted
  exact makes_afterStopCall _ letters' (bears.advances h.advances) hhalted.overdue fun _ _ => hhalted.waited

end Discarding

/-! ## Attempts -/

section Attempts

variable (client : Client (σ × List Exchange)) (setup : Setup σ) (letters : List Letter) {number : Nat}
  {session : Session}

theorem makes_afterDiscard (bears : (client.scene letters).Bears number session.id) (fault : Fault)
    {discarded : Progress Nat Unit}
    (halted : ∀ ticket, discarded = .waits ticket → (client.scene letters).Halted session.id) :
    Makes warrant (client.scene letters) Staged (client.afterDiscard number session fault discarded) := by
  unfold afterDiscard
  split
  · next ticket =>
    refine makes_nothing rfl ⟨halting_waits fun other hn => ?_, nofun⟩
    cases hn
    exact ⟨session.id, bears, halted ticket rfl⟩
  · exact makes_nothing rfl (staged_fails _)
  · exact makes_nothing rfl (staged_fails _)

theorem makes_handshakeFailed (bears : (client.scene letters).Bears number session.id) (fault : Fault) :
    Makes warrant (client.scene letters) Staged
      (client.handshakeFailed setup.recorded number session fault) := by
  unfold handshakeFailed
  split
  · exact makes_nothing (client.unseen_log _ letters) (staged_fails _)
  · have hu := client.unseen_log (.error ("Handshake with " ++ session.id ++ " failed: " ++ fault.message))
    rw [← hu] at bears
    have hdiscard : Makes warrant _ _ _ :=
      makes_discard _ setup letters bears ("Handshake failed: " ++ fault.message)
    refine hu.makes (hdiscard.andThen fun letters' h hhalted => ?_)
    exact makes_afterDiscard _ letters' (bears.advances h.advances) fault hhalted

/-- A session that is initializing gets to be ready. -/
theorem makes_handshakeSucceeded (found : client.sessions.session? number = some session) :
    Makes warrant (client.scene letters) Staged (client.handshakeSucceeded number session) := by
  unfold handshakeSucceeded
  split
  · next hstage =>
    have hadvances : session.Advances { session with stage := .ready } := by
      refine ⟨rfl, rfl, rfl, ?_⟩
      rw [hstage]
      exact Nat.le_succ 1
    have hchange : Change warrant (client.scene letters) ((client.setStage number .ready).scene letters) :=
      .advanced (f := fun session => { session with stage := .ready }) found hadvances rfl
    have hready : (client.setStage number .ready).sessions.session? number = some { session with stage := .ready } := by
      change (client.sessions.modify number _).session? number = _
      rw [SessionRegistry.session?_modify, if_pos rfl, found, Option.map_some]
    refine Makes.after (.single hchange) (makes_nothing (unseen_log _ _ letters) ⟨halting_ends _, fun id hid => ?_⟩)
    cases hid
    exact ⟨number, _, hready, rfl, rfl⟩
  · exact makes_nothing rfl (staged_fails _)

theorem makes_afterHandshake (number : Nat) (shaken : Progress HandshakePhase Unit) :
    Makes warrant (client.scene letters) Staged (client.afterHandshake setup.recorded number shaken) := by
  unfold afterHandshake
  split
  · exact makes_nothing rfl (staged_waits rfl)
  · split
    · exact makes_nothing rfl (staged_fails _)
    · next found => exact client.makes_handshakeSucceeded letters found
    · next found => exact client.makes_handshakeFailed setup letters ⟨_, found, rfl⟩ _

theorem makes_afterAbort (language id : String) (stopped : Progress Nat Unit) :
    Makes warrant (client.scene letters) Staged (client.afterAbort language id stopped) := by
  unfold afterAbort
  split
  · exact makes_nothing rfl (staged_waits rfl)
  · exact makes_nothing rfl (staged_fails _)
  · exact makes_nothing rfl (staged_fails _)

/-- A session is added. -/
theorem change_enrol (begins : session.stage = .initializing) (untold : session.versions = []) :
    Change warrant (client.scene letters) ((client.enrol session).scene letters) := by
  have hscene : (client.enrol session).scene letters =
      { client.scene letters with sessions := client.sessions.add session } := by
    unfold enrol
    dsimp only
    split <;> rfl
  rw [hscene]
  exact .enrolled begins untold

theorem makes_afterServerStart (language root : String) (started : Progress Nat StartResult) :
    Makes warrant (client.scene letters) Staged
      (client.afterServerStart setup.recorded language root started) := by
  unfold afterServerStart
  split
  · exact makes_nothing rfl (staged_waits rfl)
  · exact makes_nothing rfl (staged_fails _)
  · next result =>
    split
    · exact makes_nothing rfl (staged_fails _)
    · split
      · exact (client.makes_ask setup letters (.stop result.session) rfl).andThen fun letters' _ _ =>
          makes_afterAbort _ letters' language result.session _
      · let session := Session.begin result.session language root
        have henrol : Change warrant (client.scene letters) ((client.enrol session).scene letters) :=
          client.change_enrol letters rfl rfl
        refine Makes.after (.single henrol) ?_
        exact (makes_shakeHands _ setup letters client.sessions.sessions.length session).andThen fun letters' _ _ =>
          makes_afterHandshake _ setup letters' _ _

theorem makes_afterInspection (language : String) (inspected : Progress Nat Availability) :
    Makes warrant (client.scene letters) Staged
      (client.afterInspection setup.recorded language inspected) := by
  unfold afterInspection
  split
  · exact makes_nothing rfl (staged_waits rfl)
  · exact makes_nothing rfl (staged_fails _)
  · dsimp only
    split <;> exact makes_nothing rfl (staged_fails _)

theorem makes_afterCheck (language root : String) (checked : Progress Nat Bool) :
    Makes warrant (client.scene letters) Staged (client.afterCheck setup.recorded language root checked) := by
  unfold afterCheck
  split
  · exact makes_nothing rfl (staged_waits rfl)
  · exact makes_nothing rfl (staged_fails _)
  · exact (client.makes_ask setup letters (.start language root) rfl).andThen fun letters' _ _ =>
      makes_afterServerStart _ setup letters' language root _
  · exact (client.makes_ask setup letters (.inspect language) rfl).andThen fun letters' _ _ =>
      makes_afterInspection _ setup letters' language _

/-- An attempt begins. -/
theorem makes_attempt (language root : String) :
    Makes warrant (client.scene letters) Staged (client.attempt setup.recorded language root) := by
  have hu := client.unseen_log (.info ("Starting server for " ++ language ++ " in " ++ root))
  exact hu.makes ((makes_ask _ setup letters (.check language) rfl).andThen fun letters' _ _ =>
    makes_afterCheck _ setup letters' language root _)

/-- An attempt goes on, from where a session that it takes apart is halted. -/
theorem makes_resumeAttempt (cancelled : Bool) (language root : String) {phase : AttemptPhase}
    (halts : ∀ number, phase.discarded? = some number → (client.scene letters).Halts number) :
    Makes warrant (client.scene letters) Staged
      (client.resumeAttempt setup.recorded cancelled language root phase) := by
  cases phase with
  | checking ticket =>
    exact (client.makes_goOn setup letters cancelled (.check language)).andThen fun letters' _ _ =>
      makes_afterCheck _ setup letters' language root _
  | inspecting ticket =>
    exact (client.makes_goOn setup letters cancelled (.inspect language)).andThen fun letters' _ _ =>
      makes_afterInspection _ setup letters' language _
  | starting ticket =>
    exact (client.makes_goOn setup letters cancelled (.start language root)).andThen fun letters' _ _ =>
      makes_afterServerStart _ setup letters' language root _
  | aborting ticket id =>
    exact (client.makes_goOn setup letters cancelled (.stop id)).andThen fun letters' _ _ =>
      makes_afterAbort _ letters' language id _
  | shaking number handshake =>
    unfold resumeAttempt
    dsimp only
    split
    · exact makes_nothing rfl (staged_fails _)
    · next session _ =>
      exact (client.makes_resumeHandshake setup letters number session cancelled handshake).andThen fun letters' _ _ =>
        makes_afterHandshake _ setup letters' number _
  | discarding ticket number fault =>
    unfold resumeAttempt
    dsimp only
    split
    · exact makes_nothing rfl (staged_fails _)
    · next session found =>
      obtain ⟨id, ⟨current, hcurrent, rfl⟩, halted⟩ := halts number rfl
      cases found.symm.trans hcurrent
      have bears : (client.scene letters).Bears number session.id := ⟨session, found, rfl⟩
      exact (client.makes_resumeDiscard setup letters bears halted cancelled).andThen fun letters' h hhalted =>
        makes_afterDiscard _ letters' (bears.advances h.advances) fault hhalted

end Attempts

/-! ## Stops -/

section Stops

variable (client : Client (σ × List Exchange)) (setup : Setup σ) (letters : List Letter) {number : Nat}
  {session : Session}

theorem makes_afterStopDiscard (bears : (client.scene letters).Bears number session.id)
    {discarded : Progress Nat Unit}
    (halted : ∀ ticket, discarded = .waits ticket → (client.scene letters).Halted session.id) :
    Makes warrant (client.scene letters) (Halting StopPhase.discarded?)
      (client.afterStopDiscard number session discarded) := by
  unfold afterStopDiscard
  split
  · next ticket =>
    refine makes_nothing rfl (halting_waits fun other hn => ?_)
    cases hn
    exact ⟨session.id, bears, halted ticket rfl⟩
  · exact makes_nothing rfl (halting_ends _)
  · exact makes_nothing (unseen_log (client.setStatus session .stopped none) _ letters) (halting_ends _)

theorem makes_afterGoodbye (bears : (client.scene letters).Bears number session.id) (outcome : Except Fault Unit) :
    Makes warrant (client.scene letters) (Halting StopPhase.discarded?)
      (client.afterGoodbye setup.recorded number session outcome) := by
  have hdiscard : ∀ next : Client (σ × List Exchange), Unseen client next →
      Makes warrant (client.scene letters) (Halting StopPhase.discarded?)
        ((next.discard setup.recorded number session ("Session " ++ session.id ++ " stopped")).1.afterStopDiscard number
          session (next.discard setup.recorded number session ("Session " ++ session.id ++ " stopped")).2) := by
    intro next hu
    rw [← hu] at bears
    have hdiscard : Makes warrant _ _ _ :=
      next.makes_discard setup letters bears ("Session " ++ session.id ++ " stopped")
    refine hu.makes (hdiscard.andThen fun letters' h hhalted => ?_)
    exact makes_afterStopDiscard _ letters' (bears.advances h.advances) hhalted
  unfold afterGoodbye
  split
  · exact makes_nothing rfl (halting_ends _)
  · split
    · exact hdiscard client (.refl client)
    · exact hdiscard _ (client.unseen_log _)

theorem makes_afterExit (bears : (client.scene letters).Bears number session.id) (told : Progress NoticePhase Unit) :
    Makes warrant (client.scene letters) (Halting StopPhase.discarded?)
      (client.afterExit setup.recorded number session told) := by
  unfold afterExit
  split
  · exact makes_nothing rfl (halting_waits nofun)
  · exact client.makes_afterGoodbye setup letters bears _

theorem makes_afterShutdown (bears : (client.scene letters).Bears number session.id)
    (asked : Progress RequestPhase Json) :
    Makes warrant (client.scene letters) (Halting StopPhase.discarded?)
      (client.afterShutdown setup.recorded number session asked) := by
  unfold afterShutdown
  split
  · exact makes_nothing rfl (halting_waits nofun)
  · exact client.makes_afterGoodbye setup letters bears _
  · have hn : Makes warrant _ _ _ :=
      client.makes_notify setup letters (.own session.id number .exit) rfl rfl rfl False.elim
    exact hn.andThen fun letters' h _ => makes_afterExit _ setup letters' (bears.advances h.advances) _

/-- The session with an identifier is stopped, unless that is under way. -/
theorem makes_stop (id : String) :
    Makes warrant (client.scene letters) (Halting StopPhase.discarded?) (client.stop setup.recorded id) := by
  unfold stop
  split
  · next number session listed hget =>
    have found : client.sessions.session? number = some session := SessionRegistry.session?_of_get? hget listed
    split
    · exact makes_nothing rfl (halting_ends _)
    · next hlive =>
      have hrank := Nat.le_of_lt (SessionStage.rank_lt_of_live (Bool.eq_false_iff.2 hlive))
      let logged := client.log (.info ("Stopping server: " ++ id))
      have hu : Unseen client logged := client.unseen_log _
      have hchange : Change warrant (client.scene letters) ((logged.setStage number .shuttingDown).scene letters) := by
        rw [← hu]
        exact .advanced (f := fun session => { session with stage := .shuttingDown }) found ⟨rfl, rfl, rfl, hrank⟩ rfl
      have bears : (client.scene letters).Bears number session.id := ⟨session, found, rfl⟩
      refine Makes.after (.single hchange) ?_
      have hr : Makes warrant _ _ _ := (logged.setStage number .shuttingDown).makes_request setup letters
        (fun request => .own id number (.shutdown request)) (some client.settings.shutdownTimeout.seconds)
        (fun _ => rfl) (fun _ => rfl) (fun _ => rfl) fun _ => False.elim
      refine hr.andThen fun letters' h _ => ?_
      exact makes_afterShutdown _ setup letters' (bears.advances (hchange.advances.trans h.advances)) _
  · exact makes_nothing rfl (halting_ends _)

theorem makes_resumeStop (cancelled : Bool) {phase : StopPhase}
    (halts : ∀ number, phase.discarded? = some number → (client.scene letters).Halts number) :
    Makes warrant (client.scene letters) (Halting StopPhase.discarded?)
      (client.resumeStop setup.recorded cancelled phase) := by
  unfold resumeStop
  dsimp only
  split
  · exact makes_nothing rfl (halting_ends _)
  · next session found =>
    cases phase with
    | asking number request =>
      have bears : (client.scene letters).Bears number session.id := ⟨session, found, rfl⟩
      exact (client.makes_resumeRequest setup letters cancelled request).andThen fun letters' h _ =>
        makes_afterShutdown _ setup letters' (bears.advances h.advances) _
    | telling number notice =>
      have bears : (client.scene letters).Bears number session.id := ⟨session, found, rfl⟩
      exact (client.makes_resumeNotice setup letters cancelled notice).andThen fun letters' h _ =>
        makes_afterExit _ setup letters' (bears.advances h.advances) _
    | discarding number ticket =>
      have bears : (client.scene letters).Bears number session.id := ⟨session, found, rfl⟩
      obtain ⟨id, ⟨current, hcurrent, rfl⟩, halted⟩ := halts number rfl
      cases found.symm.trans hcurrent
      exact (client.makes_resumeDiscard setup letters bears halted cancelled).andThen fun letters' h hhalted =>
        makes_afterStopDiscard _ letters' (bears.advances h.advances) hhalted

end Stops

/-! ## Several sessions -/

section Several

variable {client : Client (σ × List Exchange)} (setup : Setup σ) {letters : List Letter}

theorem makes_stopEach (ids : List String) :
    Makes warrant (client.scene letters) (Halting StopAllPhase.discarded?) (client.stopEach setup.recorded ids) := by
  induction ids generalizing client letters with
  | nil => exact makes_nothing rfl (halting_ends _)
  | cons id rest ih =>
    refine (client.makes_stop setup letters id).andThen fun letters' _ hp => ?_
    unfold stopEach
    split
    · next stopped current heq =>
      rw [heq] at hp ⊢
      exact makes_nothing rfl (halting_waits fun number hn => hp current number rfl hn)
    · next stopped fault heq =>
      rw [heq]
      exact makes_nothing rfl (halting_ends _)
    · next stopped heq =>
      rw [heq]
      exact ih

theorem makes_resumeStopAll (cancelled : Bool) {phase : StopAllPhase}
    (halts : ∀ number, phase.discarded? = some number → (client.scene letters).Halts number) :
    Makes warrant (client.scene letters) (Halting StopAllPhase.discarded?)
      (client.resumeStopAll setup.recorded cancelled phase) := by
  refine (client.makes_resumeStop setup letters cancelled halts).andThen fun letters' _ hp => ?_
  unfold resumeStopAll
  split
  · next stopped current heq =>
    rw [heq] at hp ⊢
    exact makes_nothing rfl (halting_waits fun number hn => hp current number rfl hn)
  · next stopped fault heq =>
    rw [heq]
    exact makes_nothing rfl (halting_ends _)
  · next stopped heq =>
    rw [heq]
    exact makes_stopEach setup phase.rest

end Several

end Client

end LanguageSessions
