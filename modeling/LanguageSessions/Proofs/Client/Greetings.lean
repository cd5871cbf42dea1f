import LanguageSessions.Client.Start
import LanguageSessions.Proofs.Client.Steps

/-!
# How sessions are greeted

An attempt adds its session and opens the handshake at once, or fails at once if what opens it cannot be written
(`shakeHands_of_unopened`). While the handshake waits, it is known how far it has got (`Handshaking`): the server is
told that the session is set up only after it answered, and a handshake that ends well has greeted the session. So a
session is brought to be ready only after it was greeted (`does_afterHandshake`), and one whose handshake failed is taken
out only after its process was to be stopped (`does_discard`).
-/

namespace LanguageSessions

/-! ## Handshakes that can be opened -/

theorem Json.membersPrintable_append (first second : Members) :
    membersPrintable (first ++ second) = (membersPrintable first && membersPrintable second) := by
  induction first with
  | nil => rfl
  | cons entry entries ih => rw [List.cons_append, membersPrintable, membersPrintable, ih, Bool.and_assoc]

/-- Whether the handshake with a server for a language can be opened: nothing in its options is beyond what is ever
written. -/
def Setup.opens {σ : Type} (setup : Setup σ) (language : String) : Bool :=
  Json.membersPrintable (((setup.servers.get? language).map (·.initializationOptions)).getD [])

/-- What opens a handshake can be written if the options can. -/
theorem Handshake.isPrintable_parameters (settings : Settings) (root : String) (server : Option Server) :
    (parameters settings root server).isPrintable =
      Json.membersPrintable ((server.map (·.initializationOptions)).getD []) := by
  unfold parameters
  rw [Json.isPrintable, Json.membersPrintable_append]
  cases (server.map (·.initializationOptions)).getD [] with
  | nil => rfl
  | cons entry entries => exact Bool.and_true _

/-! ## What is known of an attempt that waits -/

namespace Account

/-- The session with a number has an identifier. -/
def Bears (account : Account) (number : Nat) (id : String) : Prop :=
  ∃ session, account.sessions.session? number = some session ∧ session.id = id

/-- The session with a number is what a session has become. -/
def Holds (account : Account) (number : Nat) (session : Session) : Prop :=
  ∃ current, account.sessions.session? number = some current ∧ session.Advances current

/-- How far the handshake of a session has got, that waits in a phase. -/
def Handshaking (account : Account) (number : Nat) (id : String) : HandshakePhase → Prop
  | .asking request =>
    ∃ key params, .opening key params ∈ account.dispatches number ∧ account.Awaits key request ∧
      .initialized ∉ account.dispatches number
  | .telling notice =>
    account.Answered number ∧ .initialized ∈ account.dispatches number ∧
      notice.message.Carries (.own id number .initialized)
  | .configuring _ => account.Greeted number id

/-- A handshake has got so far, and has greeted its session if it ended well. -/
structure Shaken (number : Nat) (id : String) (account : Account) (progress : Progress HandshakePhase Unit) : Prop where
  bears : account.Bears number id
  waits : ∀ phase, progress = .waits phase → account.Handshaking number id phase
  greeted : progress = .ends (.ok ()) → account.Greeted number id

/-- The process of a session was to be stopped, and the session has stopped if that ended. -/
structure Discarded (number : Nat) (session : Session) (account : Account) (progress : Progress Nat Unit) : Prop where
  waits : ∀ ticket, progress = .waits ticket → .stop session.id ∈ account.calls
  stopped : progress = .ends (.ok ()) → ∃ current, account.sessions.session? number = some current ∧
    session.Advances current ∧ current.stage = .stopped

end Account

/-- The session that an attempt is at work on, by number. -/
def AttemptPhase.session? : AttemptPhase → Option Nat
  | .shaking number _ | .discarding _ number _ => some number
  | _ => none

namespace Account

/-- What holds while an attempt waits in a phase. -/
def Attempting (account : Account) : AttemptPhase → Prop
  | .shaking number handshake =>
    ∃ session, account.sessions.session? number = some session ∧ account.Handshaking number session.id handshake
  | .discarding _ number _ =>
    ∃ session, account.sessions.session? number = some session ∧ .stop session.id ∈ account.calls
  | _ => True

/-- An attempt has got so far; the session that it is at work on is one that the role greets. -/
def Attempted (role : Role) (account : Account) (progress : Progress AttemptPhase String) : Prop :=
  ∀ phase, progress = .waits phase →
    account.Attempting phase ∧ ∀ number, phase.session? = some number → role.greets number

section Lasting

variable {role : Role} {account later : Account} {number : Nat} {id : String} {session : Session}

theorem Since.bears (h : Since role account later) (hb : account.Bears number id) : later.Bears number id := by
  obtain ⟨session, found, rfl⟩ := hb
  obtain ⟨later, found', ha⟩ := h.sessions number session found
  exact ⟨later, found', ha.id⟩

theorem Since.holds (h : Since role account later) (hh : account.Holds number session) : later.Holds number session := by
  obtain ⟨current, found, ha⟩ := hh
  obtain ⟨current', found', ha'⟩ := h.sessions number current found
  exact ⟨current', found', ha.trans ha'⟩

/-- A handshake stays as far as it has got while others act. -/
theorem Since.handshaking (h : Since role account later) (hn : ¬ role.greets number) {phase : HandshakePhase}
    (hp : account.Handshaking number id phase) : later.Handshaking number id phase := by
  cases phase with
  | asking request =>
    obtain ⟨key, params, hm, ha, hfirst⟩ := hp
    exact ⟨key, params, h.mem hm, h.awaits ha, fun hm => hfirst (h.greeted number hn hm)⟩
  | telling notice =>
    obtain ⟨ha, hm, hc⟩ := hp
    exact ⟨h.answered ha, h.mem hm, hc⟩
  | configuring notice => exact h.greetedStill hp

/-- What holds while an attempt waits lasts while others act. -/
theorem Since.attempting (h : Since role account later) {phase : AttemptPhase}
    (hn : ∀ number, phase.session? = some number → ¬ role.greets number) (hp : account.Attempting phase) :
    later.Attempting phase := by
  cases phase with
  | checking _ | inspecting _ | starting _ | aborting _ _ => trivial
  | shaking number handshake =>
    obtain ⟨session, found, hh⟩ := hp
    obtain ⟨session', found', ha⟩ := h.sessions number session found
    refine ⟨session', found', ?_⟩
    rw [ha.id]
    exact h.handshaking (hn number rfl) hh
  | discarding ticket number fault =>
    obtain ⟨session, found, hm⟩ := hp
    obtain ⟨session', found', ha⟩ := h.sessions number session found
    refine ⟨session', found', ?_⟩
    rw [ha.id]
    exact h.calls.subset hm

/-- The session that an attempt is at work on is there. -/
theorem Attempting.lt_length {phase : AttemptPhase} (h : account.Attempting phase)
    (hn : phase.session? = some number) : number < account.sessions.sessions.length := by
  cases phase with
  | checking _ | inspecting _ | starting _ | aborting _ _ => cases hn
  | shaking _ _ | discarding _ _ _ =>
    cases hn
    obtain ⟨session, found, -⟩ := h
    exact SessionRegistry.lt_length found

/-- Sessions are never fewer. -/
theorem Since.length_le (h : Since role account later) :
    account.sessions.sessions.length ≤ later.sessions.sessions.length := by
  by_contra hlt
  have hindex : later.sessions.sessions.length < account.sessions.sessions.length := by omega
  obtain ⟨session, found, -⟩ := h.sessions _ _ (List.getElem?_eq_getElem hindex)
  exact Nat.lt_irrefl _ (SessionRegistry.lt_length found)

end Lasting

end Account

namespace Client

open Account

variable {σ : Type} {role : Role}

section Shaking

variable (client : Client (σ × List Exchange)) (setup : Setup σ) (letters : List Letter) {number : Nat}
  {session : Session}

/-! ## The handshake -/

theorem does_configure (ho : (client.account letters).Coherent) (bears : (client.account letters).Bears number session.id)
    (greeted : (client.account letters).Greeted number session.id) :
    Does role (client.account letters) (Shaken number session.id) (client.configure setup.recorded session) := by
  unfold configure
  split
  · exact does_nothing rfl ⟨bears, nofun, fun _ => greeted⟩
  · next server _ =>
    split
    · exact does_nothing rfl ⟨bears, nofun, fun _ => greeted⟩
    · have permits : (client.account letters).Permits role
          (.own session.id number (.configuration server.settings)) := by
        obtain ⟨current, found, hid⟩ := bears
        rw [← hid]
        exact .configuration server.settings found greeted.told
      refine (client.does_notifyIfPrintable setup letters rfl rfl permits).andThen ho fun letters' _ hs _ => ?_
      refine does_nothing rfl ⟨hs.bears bears, fun phase hp => ?_, fun _ => hs.greetedStill greeted⟩
      unfold Progress.inPhase at hp
      split at hp
      · cases hp
        exact hs.greetedStill greeted
      · cases hp

/-- The server was told that the session is set up, or not. -/
theorem does_afterTelling (ho : (client.account letters).Coherent)
    (bears : (client.account letters).Bears number session.id) (answered : (client.account letters).Answered number)
    (told : .initialized ∈ (client.account letters).dispatches number) {notice : Progress NoticePhase Unit}
    (posting : Posting (.own session.id number .initialized) (client.account letters) notice) :
    Does role (client.account letters) (Shaken number session.id)
      (client.afterTelling setup.recorded session notice) := by
  unfold afterTelling
  split
  · refine does_nothing rfl ⟨bears, fun phase hp => ?_, nofun⟩
    cases hp
    exact ⟨answered, told, posting.waits _ rfl⟩
  · exact does_nothing rfl ⟨bears, nofun, nofun⟩
  · exact client.does_configure setup letters ho bears ⟨answered, told, posting.delivered rfl⟩

/-- What a server says that it can do is remembered. -/
theorem advances_capabilities (session : Session) (capabilities : Json) :
    session.Advances { session with capabilities } ∧ { session with capabilities }.stage = session.stage :=
  ⟨⟨rfl, rfl, rfl, Nat.le_refl _⟩, rfl⟩

/-- The server has answered, so it is told that the session is set up. -/
theorem does_tell (ho : (client.account letters).Coherent) (greets : role.greets number)
    (bears : (client.account letters).Bears number session.id) (answered : (client.account letters).Answered number)
    (first : .initialized ∉ (client.account letters).dispatches number) :
    Does role (client.account letters) (Shaken number session.id)
      ((client.notify setup.recorded session.id "initialized" (.object [])).1.afterTelling setup.recorded session
        (client.notify setup.recorded session.id "initialized" (.object [])).2) := by
  obtain ⟨current, found, hid⟩ := bears
  have permits : (client.account letters).Permits role (.own session.id number .initialized) := by
    rw [← hid]
    exact .initialized found greets answered first
  refine (client.does_notify setup letters rfl rfl permits).andThen ho fun letters' hc hs htold => ?_
  obtain ⟨hl, hposting⟩ := htold
  refine does_afterTelling _ setup letters' hc (hs.bears ⟨current, found, hid⟩) (hs.answered answered) ?_ hposting
  rw [dispatches_concat hl]
  exact List.mem_append_right _ (List.mem_singleton_self _)

/-- The server was asked, and answered or not: only if it did, it is told that the session is set up. -/
theorem does_afterAsking (ho : (client.account letters).Coherent) (greets : role.greets number)
    (bears : (client.account letters).Bears number session.id) {key : RequestId} {params : Json}
    (opened : .opening key params ∈ (client.account letters).dispatches number)
    (first : .initialized ∉ (client.account letters).dispatches number) {asked : Progress RequestPhase Json}
    (awaiting : Awaiting key (client.account letters) asked) :
    Does role (client.account letters) (Shaken number session.id)
      (client.afterAsking setup.recorded number session asked) := by
  unfold afterAsking
  split
  · refine does_nothing rfl ⟨bears, fun phase hp => ?_, fun hp => ?_⟩
    · cases hp
      exact ⟨key, params, opened, awaiting.waits _ rfl, first⟩
    · cases hp
  · refine does_nothing rfl ⟨bears, fun phase hp => ?_, fun hp => ?_⟩ <;> cases hp
  · next result =>
    have answered : (client.account letters).Answered number := (awaiting.brings result rfl).answered opened
    dsimp only
    split
    · next capabilities _ =>
      have noted : Deeds role (client.account letters)
          ((client.changeSession number fun session => { session with capabilities }).account letters) :=
        .single (.change fun session => advances_capabilities session _)
      obtain ⟨hs, hc⟩ := noted.since_coherent ho
      exact (does_tell _ setup letters hc greets (hs.bears bears) (hs.answered answered) first).after noted
    · exact client.does_tell setup letters ho greets bears answered first

theorem account_enrol (session : Session) :
    (client.enrol session).account letters = (client.account letters).enrol session := by
  unfold enrol Account.enrol StatusBoard.find?
  rw [account_setStatus]
  split <;> next h => simp only [account, h, StatusBoard.remove]

theorem has_enrol (session : Session) : (client.enrol session).sessions.has session.id = true := by
  have hs : (client.enrol session).sessions = client.sessions.add session :=
    congrArg Account.sessions (client.account_enrol [] session)
  rw [hs, SessionRegistry.has, Entries.has, SessionRegistry.add, Entries.get?_set, if_pos rfl]
  rfl

theorem pending_enrol (session : Session) : (client.enrol session).pending = client.pending :=
  congrArg Account.pending (client.account_enrol [] session)

/-- A session is added, and its handshake is opened. -/
theorem does_open (ho : (client.account letters).Coherent) (greets : role.greets client.sessions.sessions.length)
    (begins : session.stage = .initializing) (opens : role.opens session.language true) (params : Json) :
    Does role (client.account letters) (Shaken client.sessions.sessions.length session.id)
      (((client.enrol session).request setup.recorded session.id "initialize" params none).1.afterAsking setup.recorded
        client.sessions.sessions.length session
        ((client.enrol session).request setup.recorded session.id "initialize" params none).2) := by
  have hpending := client.pending_enrol session
  let letter : RequestId → Letter := fun id => .own session.id client.sessions.sessions.length (.opening id params)
  have hdeeds : ∀ id pending reply, Pending.Moves role.answers (client.enrol session).pending pending →
      Deeds role (client.account letters)
        ({ (client.enrol session).account letters with pending }.handOver (letter id) reply) := by
    intro id pending reply moves
    rw [account_enrol]
    rw [hpending] at moves
    exact .single (.greet id params reply greets begins opens moves)
  have hrequest := (client.enrol session).does_request setup letters none ho (client.has_enrol session)
    (hpending ▸ ho.numbered) (fun _ => rfl) (fun _ => rfl) hdeeds
  refine hrequest.andThen ho fun letters' hc _ hasked => ?_
  obtain ⟨id, hl, hawaiting⟩ := hasked
  -- There were no letters for the session before.
  have hdispatches := dispatches_concat hl
  rw [show letters.filterMap (Letter.dispatch? client.sessions.sessions.length) = [] from ho.dispatches_eq_nil,
    List.nil_append] at hdispatches
  have hletter : letter id ∈ letters ++ [letter id] := List.mem_append_right _ (List.mem_singleton_self _)
  have bears := hc.owned session.id client.sessions.sessions.length (.opening id params) (hl ▸ hletter)
  have opened := hdispatches ▸ List.mem_singleton_self (Dispatch.opening id params)
  refine does_afterAsking _ setup letters' hc greets bears opened (fun told => ?_) hawaiting
  cases List.mem_singleton.1 (hdispatches ▸ told)

/-- A handshake that cannot be opened fails at once, and nothing is handed over. -/
theorem shakeHands_of_unopened {client : Client σ} {setup : Setup σ} {session : Session} (number : Nat)
    (registered : client.sessions.has session.id = true) (h : setup.opens session.language = false) :
    client.shakeHands setup number session =
      ({ client with pending := client.pending.nextId.1 }, .ends (.error .longInteger)) := by
  have hparams : (Handshake.parameters client.settings session.root
      (setup.servers.get? session.language)).isPrintable = false := (Handshake.isPrintable_parameters _ _ _).trans h
  unfold shakeHands
  dsimp only
  rw [requestIfPrintable_of_unprintable _ _ _ _ registered hparams]
  rfl

/-- A session is added, and its handshake begins; it fails at once if it cannot be opened. -/
theorem does_shakeHands (ho : (client.account letters).Coherent)
    (greets : role.greets client.sessions.sessions.length) (begins : session.stage = .initializing)
    (opens : ∀ language, role.opens language (setup.opens language)) :
    Does role (client.account letters) (Shaken client.sessions.sessions.length session.id)
      ((client.enrol session).shakeHands setup.recorded client.sessions.sessions.length session) := by
  cases hopens : setup.opens session.language with
  | true =>
    have hparams : (Handshake.parameters (client.enrol session).settings session.root
        (setup.recorded.servers.get? session.language)).isPrintable = true :=
      (Handshake.isPrintable_parameters _ _ _).trans hopens
    unfold shakeHands
    dsimp only
    rw [requestIfPrintable_of_printable _ _ _ _ _ hparams]
    exact client.does_open setup letters ho greets begins (hopens ▸ opens session.language) _
  | false =>
    have hclosed : setup.recorded.opens session.language = false := hopens
    rw [shakeHands_of_unopened _ (client.has_enrol session) hclosed]
    have moves : Pending.Moves role.answers client.pending (client.enrol session).pending.nextId.1 := by
      rw [pending_enrol]
      exact ho.numbered.moves_nextId
    have hd : Deed role (client.account letters)
        { (client.account letters).enrol session with pending := (client.enrol session).pending.nextId.1 } :=
      .enrol greets begins (hopens ▸ opens session.language) moves
    have bears : Bears { (client.account letters).enrol session with pending := (client.enrol session).pending.nextId.1 }
        client.sessions.sessions.length session.id :=
      ⟨session, client.sessions.session?_added session, rfl⟩
    rw [← account_enrol] at hd bears
    exact does_deed hd ⟨bears, nofun, nofun⟩

theorem does_resumeHandshake (ho : (client.account letters).Coherent) (greets : role.greets number)
    (bears : (client.account letters).Bears number session.id) (cancelled : Bool) {phase : HandshakePhase}
    (handshaking : (client.account letters).Handshaking number session.id phase) :
    Does role (client.account letters) (Shaken number session.id)
      (client.resumeHandshake setup.recorded cancelled number session phase) := by
  cases phase with
  | asking request =>
    obtain ⟨key, params, opened, awaits, first⟩ := handshaking
    refine (client.does_resumeRequest setup letters ho cancelled request).andThen ho fun letters' hc hs hasked => ?_
    obtain ⟨hl, ha⟩ := hasked
    refine does_afterAsking _ setup letters' hc greets (hs.bears bears) (hs.mem opened) ?_ (ha key awaits)
    rw [dispatches, hl]
    exact first
  | telling notice =>
    obtain ⟨answered, told, carries⟩ := handshaking
    refine (client.does_resumeNotice setup letters ho cancelled notice).andThen ho fun letters' hc hs htold => ?_
    exact does_afterTelling _ setup letters' hc (hs.bears bears) (hs.answered answered) (hs.mem told)
      (htold.2 _ carries)
  | configuring notice =>
    refine (client.does_resumeNotice setup letters ho cancelled notice).andThen ho fun letters' _ hs _ => ?_
    refine does_nothing rfl ⟨hs.bears bears, fun phase hp => ?_, fun _ => hs.greetedStill handshaking⟩
    unfold Progress.inPhase at hp
    split at hp
    · cases hp
      exact hs.greetedStill handshaking
    · cases hp

end Shaking

/-! ## Taking a session apart -/

section Discarding

variable (client : Client (σ × List Exchange)) (setup : Setup σ) (letters : List Letter) {number : Nat}
  {session : Session}

/-- A session whose process was to be stopped is taken out. -/
theorem does_drop (minds : role.Minds number) (holds : (client.account letters).Holds number session)
    (called : .stop session.id ∈ (client.account letters).calls) (routes : Routes) :
    Does role (client.account letters) (Discarded number session)
      (({ client with routes, sessions := client.sessions.remove session.id }.setStage number .stopped,
        .ends (.ok ())) : Client (σ × List Exchange) × Progress Nat Unit) := by
  obtain ⟨current, found, advances⟩ := holds
  have hd : Deed role (client.account letters)
      ({ client.account letters with sessions := client.sessions.remove current.id }.reach number .stopped) :=
    .drop found (advances.id.symm ▸ called) minds
  rw [advances.id] at hd
  obtain ⟨last, hlast, hadvances⟩ := client.sessions.advances_remove session.id number current found
  refine does_deed hd ⟨nofun, fun _ => ⟨{ last with stage := .stopped }, ?_, ?_, rfl⟩⟩
  · change ((client.sessions.remove session.id).modify number _).session? number = _
    rw [SessionRegistry.session?_modify, if_pos rfl, hlast, Option.map_some]
  · have hsession := advances.trans hadvances
    exact ⟨hsession.id, hsession.language, hsession.root, session.stage.rank_le_stopped⟩

theorem does_afterStopCall (minds : role.Minds number) (holds : (client.account letters).Holds number session)
    (called : .stop session.id ∈ (client.account letters).calls) (stopped : Progress Nat Unit) :
    Does role (client.account letters) (Discarded number session) (client.afterStopCall number session stopped) := by
  unfold afterStopCall
  split
  · exact does_nothing rfl ⟨fun _ _ => called, nofun⟩
  · exact does_nothing rfl ⟨nofun, nofun⟩
  · next outcome _ =>
    cases outcome with
    | ok _ => exact client.does_drop letters minds holds called _
    | error fault =>
      have ha := client.accords_log
        (.warning ("Error stopping server process " ++ session.id ++ ": " ++ fault.message))
      exact ha.does (does_drop _ letters minds (ha letters ▸ holds) (ha letters ▸ called) _)

theorem does_discard (ho : (client.account letters).Coherent) (minds : role.Minds number)
    (holds : (client.account letters).Holds number session) (reason : String) :
    Does role (client.account letters) (Discarded number session)
      (client.discard setup.recorded number session reason) := by
  have hm : Pending.Moves role.answers client.pending (client.pending.cancelAll reason (some session.id)).1 :=
    ho.numbered.moves_cancelAll reason (some session.id)
  let cancelled := client.setPending (client.pending.cancelAll reason (some session.id)).1
  have hd : Deeds role (client.account letters) (cancelled.account letters) := .single (.pending hm)
  obtain ⟨hs, hc⟩ := hd.since_coherent ho
  have hstops : ∀ id, LayerCall.stop session.id = .stop id → (cancelled.account letters).MayStop role id := by
    rintro _ ⟨⟩
    obtain ⟨current, found, advances⟩ := hs.holds holds
    exact Or.inr ⟨number, current, found, advances.id, minds⟩
  refine ((cancelled.does_ask setup letters _ rfl hstops).andThen hc fun letters' _ hs' ⟨_, hcalled⟩ => ?_).after hd
  exact does_afterStopCall _ letters' minds (hs'.holds (hs.holds holds)) hcalled _

theorem does_resumeDiscard (ho : (client.account letters).Coherent) (cancelled : Bool) (minds : role.Minds number)
    (holds : (client.account letters).Holds number session)
    (called : .stop session.id ∈ (client.account letters).calls) :
    Does role (client.account letters) (Discarded number session)
      (client.resumeDiscard setup.recorded cancelled number session) := by
  refine (client.does_goOn setup letters cancelled (.stop session.id)).andThen ho fun letters' _ hs _ => ?_
  exact does_afterStopCall _ letters' minds (hs.holds holds) (hs.calls.subset called) _

end Discarding

/-! ## Attempts -/

section Attempts

variable (client : Client (σ × List Exchange)) (setup : Setup σ) (letters : List Letter) {number : Nat}
  {session : Session}

/-- An attempt that has ended. -/
theorem attempted_ends {account : Account} (outcome : Except Fault String) : Attempted role account (.ends outcome) :=
  nofun

theorem does_afterDiscard (greets : role.greets number) (holds : (client.account letters).Holds number session)
    (fault : Fault) {discarded : Progress Nat Unit}
    (hd : Discarded number session (client.account letters) discarded) :
    Does role (client.account letters) (Attempted role) (client.afterDiscard number session fault discarded) := by
  unfold afterDiscard
  split
  · next ticket =>
    refine does_nothing rfl fun phase hp => ?_
    cases hp
    obtain ⟨current, found, advances⟩ := holds
    refine ⟨⟨current, found, ?_⟩, fun other hn => by cases hn; exact greets⟩
    rw [advances.id]
    exact hd.waits ticket rfl
  · exact does_nothing rfl (attempted_ends _)
  · obtain ⟨current, found, advances, stage⟩ := hd.stopped rfl
    have hd : Deed role (client.account letters)
        ((client.account letters).display session .error (some fault.message)) :=
      .display .error _ found advances stage (Or.inr rfl) (Or.inl greets)
    exact does_deed hd (attempted_ends _)

/-- The handshake failed: unless the session is being ended already, its process is stopped. -/
theorem does_handshakeFailed (ho : (client.account letters).Coherent) (greets : role.greets number)
    (found : client.sessions.session? number = some session) (fault : Fault) :
    Does role (client.account letters) (Attempted role)
      (client.handshakeFailed setup.recorded number session fault) := by
  have holds : (client.account letters).Holds number session := ⟨session, found, .refl session⟩
  unfold handshakeFailed
  split
  · exact does_nothing (client.account_log letters _) (attempted_ends _)
  · have ha := client.accords_log (.error ("Handshake with " ++ session.id ++ " failed: " ++ fault.message))
    have hdiscard : Does role _ _ _ := does_discard _ setup letters (ha letters ▸ ho) (Or.inl greets)
      (ha letters ▸ holds) ("Handshake failed: " ++ fault.message)
    refine ha.does (hdiscard.andThen (ha letters ▸ ho) fun letters' _ hs hd => ?_)
    exact does_afterDiscard _ letters' greets (hs.holds (ha letters ▸ holds)) fault hd

/-- The handshake succeeded: unless the session is being ended already, it is ready. -/
theorem does_handshakeSucceeded (greets : role.greets number)
    (found : client.sessions.session? number = some session)
    (greeted : (client.account letters).Greeted number session.id) :
    Does role (client.account letters) (Attempted role) (client.handshakeSucceeded number session) := by
  unfold handshakeSucceeded
  split
  · next begins =>
    have hd : Deed role (client.account letters)
        (((client.account letters).reach number .ready).display session .running none) :=
      .ready found begins greets greeted
    refine ⟨letters, ?_, attempted_ends _⟩
    rw [account_log]
    exact .single hd
  · exact does_nothing rfl (attempted_ends _)

theorem does_afterHandshake (ho : (client.account letters).Coherent) (greets : role.greets number) {id : String}
    {shaken : Progress HandshakePhase Unit} (hs : Shaken number id (client.account letters) shaken) :
    Does role (client.account letters) (Attempted role) (client.afterHandshake setup.recorded number shaken) := by
  obtain ⟨session, found, rfl⟩ := hs.bears
  have hsession : client.sessions.session? number = some session := found
  cases shaken with
  | waits phase =>
    refine does_nothing rfl fun waiting hp => ?_
    cases hp
    exact ⟨⟨session, found, hs.waits phase rfl⟩, fun other hn => by cases hn; exact greets⟩
  | ends outcome =>
    unfold afterHandshake
    dsimp only
    rw [hsession]
    cases outcome with
    | ok _ => exact client.does_handshakeSucceeded letters greets found (hs.greeted rfl)
    | error fault => exact client.does_handshakeFailed setup letters ho greets found fault

/-- Calling the process layer does not close the client. -/
theorem isClosing_afterCall {α : Type} (step : LayerStep (σ × List Exchange) α) :
    (client.afterCall step).1.isClosing = client.isClosing := by
  unfold afterCall
  cases step.reply <;> rfl

theorem isClosing_ask (call : LayerCall) : (client.ask setup.recorded call).1.isClosing = client.isClosing :=
  isClosing_afterCall _ _

theorem isClosing_goOn (cancelled : Bool) (call : LayerCall) :
    (client.goOn setup.recorded cancelled call).1.isClosing = client.isClosing := by
  unfold goOn
  split
  · rfl
  · exact isClosing_afterCall _ _

theorem does_afterAbort (language id : String) (stopped : Progress Nat Unit) :
    Does role (client.account letters) (Attempted role) (client.afterAbort language id stopped) := by
  unfold afterAbort
  split
  · refine does_nothing rfl fun phase hp => ?_
    cases hp
    exact ⟨trivial, nofun⟩
  · exact does_nothing rfl (attempted_ends _)
  · exact does_nothing rfl (attempted_ends _)

/-- A server was started: its session is added and greeted, unless the client is being closed. -/
theorem does_afterServerStart (ho : (client.account letters).Coherent)
    (greets : ∀ number, client.sessions.sessions.length ≤ number → role.greets number)
    (aborts : client.isClosing = true → ∀ id, role.aborts id)
    (opens : ∀ language, role.opens language (setup.opens language)) (language root : String)
    (started : Progress Nat StartResult) :
    Does role (client.account letters) (Attempted role)
      (client.afterServerStart setup.recorded language root started) := by
  unfold afterServerStart
  split
  · refine does_nothing rfl fun phase hp => ?_
    cases hp
    exact ⟨trivial, nofun⟩
  · exact does_nothing rfl (attempted_ends _)
  · next result =>
    split
    · exact does_nothing rfl (attempted_ends _)
    · split
      · next hclosing =>
        exact (client.does_ask setup letters (.stop result.session) rfl fun id _ => Or.inl (aborts hclosing id)).andThen ho
          fun letters' _ _ _ => does_afterAbort _ letters' language result.session _
      · have hgreets := greets _ (Nat.le_refl _)
        have hshake : Does role (client.account letters) _ _ :=
          client.does_shakeHands setup letters ho hgreets
            (rfl : (Session.begin result.session language root).stage = _) opens
        exact hshake.andThen ho fun letters' hc _ hshaken => does_afterHandshake _ setup letters' hc hgreets hshaken

theorem does_startServer (ho : (client.account letters).Coherent)
    (greets : ∀ number, client.sessions.sessions.length ≤ number → role.greets number)
    (aborts : client.isClosing = true → ∀ id, role.aborts id)
    (opens : ∀ language, role.opens language (setup.opens language)) (language root : String) :
    Does role (client.account letters) (Attempted role) (client.startServer setup.recorded language root) :=
  (client.does_ask setup letters (.start language root) rfl nofun).andThen ho fun letters' hc hs _ =>
    does_afterServerStart _ setup letters' hc (fun number hn => greets number (hs.length_le.trans hn))
      (by rw [isClosing_ask]; exact aborts) opens language root _

theorem does_afterInspection (language : String) (known : Progress Nat Availability) :
    Does role (client.account letters) (Attempted role) (client.afterInspection setup.recorded language known) := by
  unfold afterInspection
  split
  · refine does_nothing rfl fun phase hp => ?_
    cases hp
    exact ⟨trivial, nofun⟩
  · exact does_nothing rfl (attempted_ends _)
  · dsimp only
    split
    · refine Accords.anything (fun letters => ?_) |>.weaken fun _ _ => attempted_ends _
      unfold account StatusBoard.addDownload
      dsimp only
      split <;> rfl
    · exact does_nothing rfl (attempted_ends _)

theorem does_afterCheck (ho : (client.account letters).Coherent)
    (greets : ∀ number, client.sessions.sessions.length ≤ number → role.greets number)
    (aborts : client.isClosing = true → ∀ id, role.aborts id)
    (opens : ∀ language, role.opens language (setup.opens language)) (language root : String)
    (checked : Progress Nat Bool) :
    Does role (client.account letters) (Attempted role)
      (client.afterCheck setup.recorded language root checked) := by
  unfold afterCheck
  split
  · refine does_nothing rfl fun phase hp => ?_
    cases hp
    exact ⟨trivial, nofun⟩
  · exact does_nothing rfl (attempted_ends _)
  · exact client.does_startServer setup letters ho greets aborts opens language root
  · exact (client.does_ask setup letters (.inspect language) rfl nofun).andThen ho fun letters' _ _ _ =>
      does_afterInspection _ setup letters' language _

/-- **An attempt begins**: it greets no session but the one that it adds. -/
theorem does_attempt (ho : (client.account letters).Coherent)
    (greets : ∀ number, client.sessions.sessions.length ≤ number → role.greets number)
    (aborts : client.isClosing = true → ∀ id, role.aborts id)
    (opens : ∀ language, role.opens language (setup.opens language)) (language root : String) :
    Does role (client.account letters) (Attempted role) (client.attempt setup.recorded language root) := by
  have ha := client.accords_log (.info ("Starting server for " ++ language ++ " in " ++ root))
  refine ha.does ((does_ask _ setup letters (.check language) rfl nofun).andThen (ha letters ▸ ho)
    fun letters' hc hs _ => ?_)
  exact does_afterCheck _ setup letters' hc (fun number hn => greets number (hs.length_le.trans hn))
    (by rw [isClosing_ask]; exact aborts) opens language root _

/-- **An attempt goes on**: it greets no session but the one that it is at work on, or that it adds. -/
theorem does_resumeAttempt (ho : (client.account letters).Coherent)
    (greets : ∀ number, client.sessions.sessions.length ≤ number → role.greets number)
    (aborts : client.isClosing = true → ∀ id, role.aborts id)
    (opens : ∀ language, role.opens language (setup.opens language)) (cancelled : Bool)
    (language root : String) {phase : AttemptPhase} (own : ∀ number, phase.session? = some number → role.greets number)
    (attempting : (client.account letters).Attempting phase) :
    Does role (client.account letters) (Attempted role)
      (client.resumeAttempt setup.recorded cancelled language root phase) := by
  cases phase with
  | checking _ =>
    refine (client.does_goOn setup letters cancelled (.check language)).andThen ho fun letters' hc hs _ => ?_
    exact does_afterCheck _ setup letters' hc (fun number hn => greets number (hs.length_le.trans hn))
      (by rw [isClosing_goOn]; exact aborts) opens language root _
  | inspecting _ =>
    exact (client.does_goOn setup letters cancelled (.inspect language)).andThen ho fun letters' _ _ _ =>
      does_afterInspection _ setup letters' language _
  | starting _ =>
    refine (client.does_goOn setup letters cancelled (.start language root)).andThen ho fun letters' hc hs _ => ?_
    exact does_afterServerStart _ setup letters' hc (fun number hn => greets number (hs.length_le.trans hn))
      (by rw [isClosing_goOn]; exact aborts) opens language root _
  | aborting _ id =>
    exact (client.does_goOn setup letters cancelled (.stop id)).andThen ho fun letters' _ _ _ =>
      does_afterAbort _ letters' language id _
  | shaking number handshake =>
    obtain ⟨session, found, handshaking⟩ := attempting
    have hsession : client.sessions.session? number = some session := found
    unfold resumeAttempt
    dsimp only
    rw [hsession]
    have hshake := client.does_resumeHandshake setup letters ho (own number rfl) ⟨session, found, rfl⟩ cancelled
      handshaking
    exact hshake.andThen ho fun letters' hc _ hshaken => does_afterHandshake _ setup letters' hc (own number rfl) hshaken
  | discarding _ number fault =>
    obtain ⟨session, found, called⟩ := attempting
    have hsession : client.sessions.session? number = some session := found
    have holds : (client.account letters).Holds number session := ⟨session, found, .refl session⟩
    unfold resumeAttempt
    dsimp only
    rw [hsession]
    exact (client.does_resumeDiscard setup letters ho cancelled (Or.inl (own number rfl)) holds called).andThen ho
      fun letters' _ hs hd => does_afterDiscard _ letters' (own number rfl) (hs.holds holds) fault hd

end Attempts

end Client

end LanguageSessions
