import LanguageSessions.Proofs.Client.Staging

/-!
# Scenes of operations

An operation makes its changes within a warrant that covers it (`Warrant.Covers`): a call about a document tells servers
about that document, and a call of a binding changes that binding. A binding is connected only to a session that is
ready, or that a start gave back (`makes_start`); with a connection that took its time the session may be gone by then.
-/

namespace LanguageSessions

namespace Scene

/-- A session takes a notice down, and it is handed over. -/
def tell (scene : Scene) (id : String) (number : Nat) (notice : DocumentNotice) (reply : Reply Unit) : Scene :=
  { scene with sessions := scene.sessions.modify number (·.takeDown notice) }.handOver
    (.own id number (.document notice)) reply

/-- The session with an identifier is ready, or was started. -/
def Source (scene : Scene) (id : String) : Prop := scene.Offers id ∨ some (.ok id) ∈ scene.outcomes

/-- What a start gives back has a source. -/
def Sourced (scene : Scene) (progress : Progress JoinPhase String) : Prop :=
  ∀ id, progress = .ends (.ok id) → scene.Source id

end Scene

namespace Warrant

/-- A warrant covers an operation on a client with bindings. -/
def Covers (warrant : Warrant) (bindings : List Binding) : Operation → Prop
  | .openDocument _ path _ _ | .changeDocument _ path _ | .closeDocument _ path => warrant.tells (Uri.ofPath path)
  | .disconnect number | .openBinding number _ | .updateBinding number _ | .closeBinding number =>
    warrant.binds number ∧ ∀ binding, bindings[number]? = some binding → warrant.tells (Uri.ofPath binding.path)
  | .notify session method params => warrant.passes (.passed session method params)
  | _ => True

/-- A warrant covers an activity that goes on. -/
def CoversActivity (warrant : Warrant) : Activity → Prop
  | .noticing (.openingBinding number) _ | .noticing (.closingBinding number _) _ => warrant.binds number
  | _ => True

end Warrant

/-- The binding that an operation connects. -/
def Operation.connected? : Operation → Option Nat
  | .connect number => some number
  | _ => none

/-- The binding that an activity connects. -/
def Activity.connected? : Activity → Option Nat
  | .connecting number _ => some number
  | _ => none

/-- What is read from the items of a list stays the same if one of them changes that does not show in it. -/
theorem map_modify_of_same {α β : Type} {f : α → α} {g : α → β} (h : ∀ item, g (f item) = g item) (items : List α)
    (index : Nat) : (items.modify index f).map g = items.map g := by
  refine List.ext_getElem? fun n => ?_
  rw [List.getElem?_map, List.getElem?_map, List.getElem?_modify]
  split
  · cases items[n]? <;> simp [h]
  · simp

namespace Client

open Scene

variable {σ : Type} {warrant : Warrant}

/-! ## Closing -/

section Closing

variable {client : Client (σ × List Exchange)} (setup : Setup σ) {letters : List Letter}

/-- All requests end, and with everything else the routes are dropped. -/
theorem changes_closeScope (scope : Scope) :
    Changes warrant (client.scene letters) ((client.closeScope scope).scene letters) := by
  have hclosed : Change warrant (client.scene letters) (client.closeSessions.scene letters) := by
    refine .settled fun entry hm => ?_
    change entry ∈ (client.pending.cancelAll "LSP service shutting down" none).1.entries at hm
    rw [Pending.entries_cancelAll] at hm
    cases hm
  cases scope with
  | sessions => exact .single hclosed
  | everything => exact .tail (.single hclosed) .unrouted

/-- An attempt is joined, or gathered. -/
theorem unseen_attempts (client : Client (σ × List Exchange)) (number : Nat) {f : Attempt → Attempt}
    (h : ∀ attempt : Attempt, (f attempt).outcome = attempt.outcome) :
    Unseen client { client with attempts := client.attempts.modify number f } := by
  intro letters
  rw [scene, map_modify_of_same h]
  rfl

theorem unseen_gather (client : Client (σ × List Exchange)) (ticket attempt : Nat) :
    Unseen client (client.gather ticket attempt) := by
  unfold gather
  split
  · exact .refl client
  · exact client.unseen_attempts attempt fun _ => rfl

theorem unseen_gathers (ticket : Nat) (attempts : List Nat) (client : Client (σ × List Exchange)) :
    Unseen client (attempts.foldl (fun client attempt => client.gather ticket attempt) client) := by
  induction attempts generalizing client with
  | nil => exact .refl client
  | cons attempt attempts ih => exact (client.unseen_gather ticket attempt).trans (ih _)

theorem makes_afterStopAll (scope : Scope) {stopped : Progress StopAllPhase Unit}
    (hp : Halting StopAllPhase.discarded? (client.scene letters) stopped) :
    Makes warrant (client.scene letters) (Halting ClosePhase.discarded?) (client.afterStopAll scope stopped) := by
  unfold afterStopAll
  split
  · next phase => exact makes_nothing rfl (halting_waits fun number hn => hp phase number rfl hn)
  · exact makes_nothing rfl (halting_ends _)
  · split
    · exact ⟨letters, changes_closeScope scope, halting_ends _⟩
    · have hgathers := unseen_gathers client.tickets client.starting.values
        { client with
          tickets := client.tickets + 1
          gathers := client.gathers.set client.tickets client.starting.values.length }
      exact makes_nothing (hgathers letters) (halting_waits nofun)

theorem makes_close (scope : Scope) :
    Makes warrant (client.scene letters) (Halting ClosePhase.discarded?) (client.close setup.recorded scope) := by
  have hu : Unseen client { client.log (.info "Cleaning up LSP session manager") with isClosing := true } :=
    client.unseen_log (.info "Cleaning up LSP session manager")
  exact hu.makes ((makes_stopEach setup _).andThen fun letters' _ hp => makes_afterStopAll scope hp)

theorem makes_resumeClose (cancelled : Bool) (scope : Scope) {phase : ClosePhase}
    (halts : ∀ number, phase.discarded? = some number → (client.scene letters).Halts number) :
    Makes warrant (client.scene letters) (Halting ClosePhase.discarded?)
      (client.resumeClose setup.recorded cancelled scope phase) := by
  cases phase with
  | stopping stops =>
    have hstops : Makes warrant _ _ (client.resumeStopAll setup.recorded cancelled stops) :=
      makes_resumeStopAll setup cancelled halts
    exact hstops.andThen fun letters' _ hp => makes_afterStopAll scope hp
  | gathering ticket attempts =>
    unfold resumeClose
    dsimp only
    split
    · exact makes_nothing rfl (halting_ends _)
    · exact ⟨letters, changes_closeScope scope, halting_ends _⟩

end Closing

/-! ## Starting -/

section Starting

variable (client : Client (σ × List Exchange)) (setup : Setup σ) (letters : List Letter)

theorem unseen_listen : Unseen client client.listen := by
  unfold listen
  split
  · exact .refl client
  · exact client.unseen_log (.info "Initializing LSP session manager")

theorem unseen_openScope (scope : Scope) : Unseen client (client.openScope scope) := by
  cases scope with
  | sessions => exact client.unseen_listen
  | everything =>
    refine client.unseen_listen.trans ?_
    unfold openScope
    dsimp only
    split <;> exact fun _ => rfl

/-- What an attempt gave back is what came of it. -/
theorem source_of_outcome (attempt : Nat) {id : String}
    (h : client.attempts[attempt]?.bind (·.outcome) = some (.ok id)) : (client.scene letters).Source id := by
  obtain ⟨found, hfound, houtcome⟩ := Option.bind_eq_some_iff.1 h
  exact Or.inr (List.mem_map.2 ⟨found, List.mem_of_getElem? hfound, houtcome⟩)

theorem makes_join (attempt : Nat) : Makes warrant (client.scene letters) Sourced (client.join attempt) := by
  unfold join
  split
  · next outcome houtcome =>
    refine makes_nothing rfl fun id hid => client.source_of_outcome letters attempt ?_
    cases hid
    exact houtcome
  · let joined := fun (entry : Attempt) => { entry with joiners := entry.joiners ++ [Joiner.caller client.tickets] }
    exact makes_nothing (client.unseen_attempts attempt (f := joined) (fun _ => rfl) letters) nofun

theorem makes_resumeJoin (cancelled : Bool) (phase : JoinPhase) :
    Makes warrant (client.scene letters) Sourced (client.resumeJoin cancelled phase) := by
  unfold resumeJoin
  split
  · exact makes_nothing rfl nofun
  · split
    · next outcome houtcome =>
      refine makes_nothing rfl fun id hid => client.source_of_outcome letters phase.attempt ?_
      cases hid
      exact houtcome
    · exact makes_nothing rfl nofun

theorem change_launch (language root : String) :
    Change warrant (client.scene letters) ((client.launch language root).1.scene letters) := by
  have hscene : (client.launch language root).1.scene letters =
      { client.scene letters with outcomes := (client.scene letters).outcomes ++ [none] } := by
    rw [scene, launch, push, List.map_append]
    rfl
  rw [hscene]
  exact .launched

/-- **A start gives back a session that is ready, or that an attempt started.** -/
theorem makes_startAt (named : client.sessions.Named) (language root : String) :
    Makes warrant (client.scene letters) Sourced (client.startAt language root) := by
  unfold startAt
  split
  · next session hfind =>
    obtain ⟨hfound, hready⟩ := Option.filter_eq_some_iff.1 hfind
    obtain ⟨number, registered⟩ := named.mem_registered.1 (List.mem_of_find?_eq_some hfound)
    refine makes_nothing (client.unseen_log _ letters) fun id hid => Or.inl ?_
    cases hid
    exact ⟨number, session, registered, rfl, beq_iff_eq.1 hready⟩
  · split
    · exact (client.unseen_log _).makes (makes_join _ letters _)
    · exact (makes_join _ letters _).after (.single (client.change_launch letters language root))

theorem makes_start (named : client.sessions.Named) (language root : String) :
    Makes warrant (client.scene letters) Sourced (client.start setup.recorded language root) := by
  unfold start
  split
  · exact makes_nothing rfl nofun
  · have hsessions := congrArg Scene.sessions (client.unseen_listen letters)
    have hnamed : client.listen.sessions.Named := by
      change client.listen.sessions = client.sessions at hsessions
      rw [hsessions]
      exact named
    exact client.unseen_listen.makes (makes_startAt _ letters hnamed language _)

end Starting

/-! ## Documents -/

section Documents

variable (client : Client (σ × List Exchange)) (setup : Setup σ) (letters : List Letter)

/-- A notice that was taken down is handed over. -/
theorem scene_document {next : Client (σ × List Exchange)} {id method : String} {params : Json} {number : Nat}
    {notice : DocumentNotice} (envelope : notice.envelope = Message.notice method params)
    (taken : next.scene letters = (client.changeSession number (·.takeDown notice)).scene letters) :
    ∃ reply, (next.notify setup.recorded id method params).1.scene (letters ++ [.own id number (.document notice)]) =
      (client.scene letters).tell id number notice reply := by
  have hprint : (Message.notice method params).print = (Letter.own id number (.document notice)).text :=
    congrArg Json.print envelope.symm
  obtain ⟨reply, hs⟩ := next.scene_notify setup letters (.own id number (.document notice)) rfl hprint
  rw [taken] at hs
  exact ⟨reply, hs⟩

theorem unseen_afterDocumentClose (path : String) (told : Progress NoticePhase Unit) :
    Unseen client (client.afterDocumentClose path told).1 := by
  unfold afterDocumentClose
  split
  · exact .refl client
  · exact .refl client
  · split
    · exact client.unseen_log _
    · exact .refl client

/-- **A call about a document of a ready session takes its notice down and hands it over**, and that is all. -/
theorem scene_documentCall {id : String} {number : Nat} {session : Session}
    (ready : client.ready? id = some (number, session)) (call : DocumentCall) :
    ∃ reply, (client.beginOperation setup.recorded (call.operation id)).1.scene
        (letters ++ [.own id number (.document (call.notice session.versions.get?))]) =
      (client.scene letters).tell id number (call.notice session.versions.get?) reply := by
  cases call with
  | opening path language text =>
    change ∃ reply, (client.openDocument setup.recorded id path language text).1.scene _ = _
    rw [openDocument, ready]
    exact client.scene_document setup letters rfl rfl
  | changing path text =>
    change ∃ reply, (client.changeDocument setup.recorded id path text).1.scene _ = _
    obtain ⟨-, found, -⟩ := client.ready?_eq_some_iff.1 ready
    rw [changeDocument, ready, DocumentCall.notice, ← session.nextVersion_fst]
    refine client.scene_document setup letters rfl ?_
    have hbump := session.takeDown_changed (Uri.ofPath path) text
    let notice := DocumentNotice.changed (Uri.ofPath path) (session.nextVersion (Uri.ofPath path)).1 text
    rw [client.changeSession_congr (f := fun session => session.takeDown notice)
      (g := fun session => session.bumpVersion (Uri.ofPath path)) found hbump]
    split
    · rfl
    · exact unseen_log _ _ letters
  | closing path =>
    change ∃ reply, (client.closeDocument setup.recorded id path).1.scene _ = _
    rw [closeDocument, ready]
    dsimp only
    rw [unseen_afterDocumentClose]
    exact client.scene_document setup letters rfl rfl

/-- A ready session may be told something that the warrant tells. -/
theorem change_tell {id : String} {number : Nat} {session : Session}
    (ready : client.ready? id = some (number, session)) {notice : DocumentNotice} (tells : warrant.tells notice.uri)
    (reply : Reply Unit) :
    Change warrant (client.scene letters) ((client.scene letters).tell id number notice reply) := by
  obtain ⟨listed, found, ready⟩ := client.ready?_eq_some_iff.1 ready
  exact .noticed reply listed found (beq_iff_eq.1 ready) tells

theorem makes_documentCall (id : String) (call : DocumentCall)
    (tells : ∀ versions, warrant.tells (call.notice versions).uri) :
    Makes warrant (client.scene letters) (Halting Activity.discarded?)
      (client.beginOperation setup.recorded (call.operation id)) := by
  cases hready : client.ready? id with
  | none =>
    rw [client.beginOperation_of_unready setup.recorded hready call]
    exact makes_nothing rfl (halting_ends _)
  | some found =>
    obtain ⟨number, session⟩ := found
    obtain ⟨reply, hscene⟩ := client.scene_documentCall setup letters hready call
    refine ⟨letters ++ [.own id number (.document (call.notice session.versions.get?))], ?_, ?_⟩
    · rw [hscene]
      exact .single (client.change_tell letters hready (tells _) reply)
    · -- Whatever the call waits for, it stops no process.
      intro activity other hw hd
      have hwaits := onlyWaits_beginOperation hw
      cases activity <;> first | cases hd | cases hwaits

/-- A part that an operation consists of changes what the operation changes. -/
theorem Makes.inside {origin : Scene} {post : Scene → Progress Activity Answer → Prop} {φ : Type}
    {step : Client (σ × List Exchange) × Progress φ Unit} (activity : φ → Activity)
    (h : Makes warrant origin post (silently activity step)) :
    Makes warrant origin Whatever step := by
  obtain ⟨letters, changes, -⟩ := h
  exact ⟨letters, changes, trivial⟩

end Documents

/-! ## Bindings -/

section Bindings

variable (client : Client (σ × List Exchange)) (setup : Setup σ) (letters : List Letter) {number : Nat}
  (binding : Binding)

/-- A binding is connected to a session with a source, or not at all. -/
theorem makes_afterConnect (language : String) {started : Progress JoinPhase String}
    (sourced : Sourced (client.scene letters) started)
    (connects : ∀ id, (client.afterConnect number binding language started).2 = .ends (.ok (some id)) →
      warrant.connects number id) :
    Makes warrant (client.scene letters) Whatever (client.afterConnect number binding language started) := by
  cases started with
  | waits join => exact makes_nothing rfl trivial
  | ends outcome =>
    cases outcome with
    | ok id =>
      let tied := client.changeBinding number fun binding => { binding with session := some id }
      let routed := { tied with routes := tied.routes.register binding.path ⟨id, language, binding.root⟩ }
      have hchange : Change warrant (client.scene letters) (routed.scene letters) :=
        .connected binding.path language binding.root (connects id rfl) (sourced id rfl)
      have hu := routed.unseen_log (.info ("Connected " ++ binding.path ++ " to LSP server: " ++ id))
      exact Makes.after (.single hchange) (makes_nothing (hu letters) trivial)
    | error fault =>
      unfold afterConnect
      dsimp only
      split
      · exact Makes.after (.single (.excused number (some fault.message)))
          (makes_nothing (unseen_log _ _ letters) trivial)
      · exact makes_nothing rfl trivial

theorem makes_connect (named : client.sessions.Named)
    (connects : ∀ id, (client.connect setup.recorded number binding).2 = .ends (.ok (some id)) →
      warrant.connects number id) :
    Makes warrant (client.scene letters) Whatever (client.connect setup.recorded number binding) := by
  cases hlanguage : binding.language.filter setup.recorded.servers.supports with
  | none =>
    rw [connect, hlanguage]
    exact makes_nothing rfl trivial
  | some language =>
    by_cases hdisabled : (!client.settings.enabled) = true
    · rw [connect, hlanguage]
      dsimp only
      rw [if_pos hdisabled]
      exact makes_nothing rfl trivial
    · rw [connect, hlanguage] at connects ⊢
      dsimp only at connects ⊢
      rw [if_neg hdisabled] at connects ⊢
      let excused := client.changeBinding number fun binding => { binding with error := none }
      have hchange : Change warrant (client.scene letters) (excused.scene letters) := .excused number none
      refine Makes.after (.single hchange) ?_
      exact (excused.makes_start setup letters named language binding.root).andThen fun letters' _ hsourced =>
        makes_afterConnect _ letters' binding language hsourced connects

theorem makes_resumeConnect (cancelled : Bool) (phase : JoinPhase)
    (connects : ∀ id, (client.resumeConnect cancelled number binding phase).2 = .ends (.ok (some id)) →
      warrant.connects number id) :
    Makes warrant (client.scene letters) Whatever (client.resumeConnect cancelled number binding phase) :=
  (client.makes_resumeJoin letters cancelled phase).andThen fun letters' _ hsourced =>
    makes_afterConnect _ letters' binding _ hsourced connects

theorem makes_afterBindingOpen (binds : warrant.binds number) (opened : Progress NoticePhase Unit) :
    Makes warrant (client.scene letters) Whatever (client.afterBindingOpen number opened) := by
  unfold afterBindingOpen
  split
  · exact makes_change (.flagged true binds) trivial
  · exact makes_nothing rfl trivial

theorem makes_openBinding (binds : warrant.binds number) (tells : warrant.tells (Uri.ofPath binding.path))
    (text : String) :
    Makes warrant (client.scene letters) Whatever (client.openBinding setup.recorded number binding text) := by
  unfold openBinding
  split
  · next session language _ _ =>
    let call := DocumentCall.opening binding.path ((Language.ofEditor language).getD language) text
    have hcall : Makes warrant _ _ _ := client.makes_documentCall setup letters session call fun _ => tells
    have hopened : Makes warrant (client.scene letters) Whatever
        (client.openDocument setup.recorded session binding.path ((Language.ofEditor language).getD language) text) :=
      hcall.inside (.noticing .plain)
    exact hopened.andThen fun letters' _ _ => makes_afterBindingOpen _ letters' binds _
  · exact makes_nothing rfl trivial

theorem makes_updateBinding (tells : warrant.tells (Uri.ofPath binding.path)) (text : String) :
    Makes warrant (client.scene letters) Whatever (client.updateBinding setup.recorded binding text) := by
  unfold updateBinding
  split
  · exact makes_nothing rfl trivial
  · next session _ =>
    have hcall : Makes warrant _ _ _ :=
      client.makes_documentCall setup letters session (.changing binding.path text) fun _ => tells
    exact hcall.inside (.noticing .plain)

theorem makes_leave (binds : warrant.binds number) (leaving : Bool) :
    Makes warrant (client.scene letters) Whatever
      ((if leaving then client.leave number binding else client, .ends (.ok ())) :
        Client (σ × List Exchange) × Progress NoticePhase Unit) := by
  split
  · exact makes_change (.left binding.path binds) trivial
  · exact makes_nothing rfl trivial

theorem makes_afterBindingClose (binds : warrant.binds number) (leaving : Bool) (closed : Progress NoticePhase Unit) :
    Makes warrant (client.scene letters) Whatever (client.afterBindingClose number binding leaving closed) := by
  unfold afterBindingClose
  split
  · let flagged := client.changeBinding number fun binding => { binding with isOpen := false }
    have hchange : Change warrant (client.scene letters) (flagged.scene letters) := .flagged false binds
    exact (flagged.makes_leave letters binding binds leaving).after (.single hchange)
  · exact makes_nothing rfl trivial

theorem makes_closeBinding (binds : warrant.binds number) (tells : warrant.tells (Uri.ofPath binding.path))
    (leaving : Bool) :
    Makes warrant (client.scene letters) Whatever
      (client.closeBinding setup.recorded number binding leaving) := by
  unfold closeBinding
  split
  · exact client.makes_leave letters binding binds leaving
  · next session _ =>
    have hcall : Makes warrant _ _ _ :=
      client.makes_documentCall setup letters session (.closing binding.path) fun _ => tells
    have hclosed : Makes warrant (client.scene letters) Whatever
        (client.closeDocument setup.recorded session binding.path) :=
      hcall.inside (.noticing (.closing binding.path))
    exact hclosed.andThen fun letters' _ _ => makes_afterBindingClose _ letters' binding binds leaving _

theorem makes_resumeDocumentClose (cancelled : Bool) (path : String) (phase : NoticePhase) :
    Makes warrant (client.scene letters) Whatever (client.resumeDocumentClose setup.recorded cancelled path phase) :=
  (client.makes_resumeNotice setup letters cancelled phase).follow (unseen_afterDocumentClose _ path _)

theorem makes_resumeUse (cancelled : Bool) (phase : NoticePhase) {use : NoticeUse}
    (covers : warrant.CoversActivity (.noticing use phase)) :
    Makes warrant (client.scene letters) Whatever (client.resumeUse setup.recorded cancelled phase use) := by
  cases use with
  | plain => exact client.makes_resumeNotice setup letters cancelled phase
  | closing path => exact client.makes_resumeDocumentClose setup letters cancelled path phase
  | openingBinding number =>
    exact (client.makes_resumeNotice setup letters cancelled phase).andThen fun letters' _ _ =>
      makes_afterBindingOpen _ letters' covers _
  | closingBinding number leaving =>
    unfold resumeUse
    dsimp only
    split
    · next binding _ =>
      exact (client.makes_resumeDocumentClose setup letters cancelled binding.path phase).andThen fun letters' _ _ =>
        makes_afterBindingClose _ letters' binding covers leaving _
    · exact makes_nothing rfl trivial

end Bindings

/-! ## Queries -/

section Queries

variable (client : Client (σ × List Exchange)) (setup : Setup σ) (letters : List Letter)

/-- A request that somebody asks for. -/
theorem makes_asking (session method : String) (params : Json) (delay : Option Binary64) :
    Makes warrant (client.scene letters) Whatever
      (client.requestIfPrintable setup.recorded session method params delay) := by
  let letter : RequestId → Letter := fun id =>
    .own session ((client.sessions.number? session).getD 0) (.query id method params)
  exact client.makes_requestIfPrintable setup letters letter delay (fun _ => rfl) (fun _ => rfl) (fun _ => rfl)
    fun _ => False.elim

theorem unseen_afterQuery (query : Query) (asked : Progress RequestPhase Json) :
    Unseen client (client.afterQuery query asked).1 := by
  unfold afterQuery
  split
  · exact .refl client
  · split
    · exact .refl client
    · exact client.unseen_logAll _

theorem makes_query (query : Query) (id method : String) (params : Members) :
    Makes warrant (client.scene letters) Whatever (client.query setup.recorded query id method params) :=
  (client.makes_asking setup letters id method (.object params) none).follow (unseen_afterQuery _ query _)

theorem makes_lookupDefinition (path : String) (position : Position) :
    Makes warrant (client.scene letters) Whatever (client.lookupDefinition setup.recorded path position) := by
  unfold lookupDefinition
  split
  · exact makes_nothing rfl trivial
  · exact (client.unseen_log _).makes (makes_query _ setup letters _ _ _ _)

theorem makes_lookupReferences (path : String) (position : Position) :
    Makes warrant (client.scene letters) Whatever (client.lookupReferences setup.recorded path position) := by
  unfold lookupReferences
  split
  · exact makes_nothing rfl trivial
  · exact (client.unseen_log _).makes (makes_query _ setup letters _ _ _ _)

theorem makes_bindingHover (binding : Binding) (position : Position) :
    Makes warrant (client.scene letters) Whatever (client.bindingHover setup.recorded binding position) := by
  unfold bindingHover
  split
  · exact client.makes_query setup letters _ _ _ _
  · exact makes_nothing rfl trivial

theorem makes_bindingDefinition (binding : Binding) (position : Position) :
    Makes warrant (client.scene letters) Whatever (client.bindingDefinition setup.recorded binding position) := by
  unfold bindingDefinition
  split
  · exact client.makes_query setup letters _ _ _ _
  · exact client.makes_lookupDefinition setup letters _ _

theorem makes_bindingReferences (binding : Binding) (position : Position) :
    Makes warrant (client.scene letters) Whatever (client.bindingReferences setup.recorded binding position) := by
  unfold bindingReferences
  split
  · exact client.makes_query setup letters _ _ _ _
  · exact client.makes_lookupReferences setup letters _ _

end Queries

/-! ## Operations and activities -/

section Operations

variable {φ α : Type} {client : Client (σ × List Exchange)} (setup : Setup σ) {letters : List Letter} {origin : Scene}

/-- A part of an operation that waits for a process to stop lets the operation wait for it. -/
theorem Makes.silently {discarded? : φ → Option Nat} {activity : φ → Activity}
    {step : Client (σ × List Exchange) × Progress φ Unit} (h : Makes warrant origin (Halting discarded?) step)
    (hs : ∀ phase, (activity phase).discarded? = discarded? phase) :
    Makes warrant origin (Halting Activity.discarded?) (Client.silently activity step) := by
  refine h.translate (fun scene phase _ hp => halting_waits fun number hn => ?_) fun _ _ _ _ => halting_ends _
  exact hp phase number rfl (hs phase ▸ hn)

/-- Something stops no process. -/
theorem Makes.unhalted {post : Scene → Progress φ α → Prop} {step : Client (σ × List Exchange) × Progress φ α}
    {next : Client (σ × List Exchange) × Progress Activity Answer} (h : Makes warrant origin post step)
    (hu : Unseen step.1 next.1) (hs : ∀ activity, next.2 = .waits activity → activity.discarded? = none) :
    Makes warrant origin (Halting Activity.discarded?) next := by
  obtain ⟨letters, changes, -⟩ := h
  refine ⟨letters, ?_, fun activity number hw hn => ?_⟩
  · rw [hu]
    exact changes
  · rw [hs activity hw] at hn
    cases hn

/-- A part of an operation that stops no process. -/
theorem Makes.part {post : Scene → Progress φ α → Prop} {step : Client (σ × List Exchange) × Progress φ α}
    (h : Makes warrant origin post step) {activity : φ → Activity} (hs : ∀ phase, (activity phase).discarded? = none)
    (g : α → Answer) :
    Makes warrant origin (Halting Activity.discarded?) (step.1, (step.2.inPhase activity).map g) := by
  refine h.unhalted (.refl _) fun waiting hw => ?_
  obtain ⟨client, phase | outcome⟩ := step
  · cases hw
    exact hs phase
  · cases hw

/-- A part of an operation that tells a server something. -/
theorem Makes.noticing {post : Scene → Progress NoticePhase Unit → Prop}
    {step : Client (σ × List Exchange) × Progress NoticePhase Unit} (h : Makes warrant origin post step)
    (use : NoticeUse) :
    Makes warrant origin (Halting Activity.discarded?) (Client.silently (.noticing use) step) := h.part (fun _ => rfl) _

theorem Makes.queried {step : Client (σ × List Exchange) × Progress QueryPhase Answer}
    (h : Makes warrant origin Whatever step) :
    Makes warrant origin (Halting Activity.discarded?) (Client.queried step) := by
  refine h.unhalted (.refl _) fun activity hw => ?_
  obtain ⟨client, phase | outcome⟩ := step
  · cases hw
    rfl
  · cases hw

theorem Makes.afterServerInspection {post : Scene → Progress Nat Availability → Prop}
    {step : Client (σ × List Exchange) × Progress Nat Availability} (h : Makes warrant origin post step)
    (language : String) :
    Makes warrant origin (Halting Activity.discarded?) (step.1.afterServerInspection language step.2) := by
  obtain ⟨client, ticket | outcome⟩ := step
  · refine h.unhalted (.refl _) fun activity hw => ?_
    cases hw
    rfl
  · refine h.unhalted (.refl _) fun activity hw => ?_
    cases hw

theorem Makes.afterDownload {post : Scene → Progress Nat String → Prop}
    {step : Client (σ × List Exchange) × Progress Nat String} (h : Makes warrant origin post step) (language : String) :
    Makes warrant origin (Halting Activity.discarded?) (step.1.afterDownload language step.2) := by
  obtain ⟨client, ticket | fault | path⟩ := step
  · refine h.unhalted (.refl _) fun activity hw => ?_
    cases hw
    rfl
  · refine h.unhalted (.refl _) fun activity hw => ?_
    cases hw
  · refine h.unhalted (fun _ => rfl) fun activity hw => ?_
    cases hw

theorem makes_afterDeparture (scope : Scope) (started : Except Fault String) {closed : Progress ClosePhase Unit}
    (hp : Halting ClosePhase.discarded? (client.scene letters) closed) :
    Makes warrant (client.scene letters) (Halting Activity.discarded?)
      (client.afterDeparture scope started closed) := by
  unfold afterDeparture
  split
  · next phase => exact makes_nothing rfl (halting_waits fun number hn => hp phase number rfl hn)
  · exact makes_nothing rfl (halting_ends _)
  · exact makes_nothing rfl (halting_ends _)

theorem makes_afterArrival (scope : Scope) (started : Progress JoinPhase String) :
    Makes warrant (client.scene letters) (Halting Activity.discarded?)
      (client.afterArrival setup.recorded scope started) := by
  cases started with
  | waits phase => exact makes_nothing rfl (halting_waits nofun)
  | ends started => exact (makes_close setup scope).andThen fun _ _ hp => makes_afterDeparture scope started hp

theorem makes_withBinding {operation : Binding → Client (σ × List Exchange) × Progress Activity Answer} {number : Nat}
    (h : ∀ binding, client.bindings[number]? = some binding →
      Makes warrant (client.scene letters) (Halting Activity.discarded?) (operation binding)) :
    Makes warrant (client.scene letters) (Halting Activity.discarded?) (client.withBinding number operation) := by
  unfold withBinding
  split
  · next binding found => exact h binding found
  · exact makes_nothing rfl (halting_ends _)

/-- What a connection that is carried out connects its binding to is what the call of it gives back. -/
theorem connected_eq {number : Nat} {step : Client (σ × List Exchange) × Progress JoinPhase (Option String)}
    {id : String} (h : step.2 = .ends (.ok (some id))) :
    (connected number step).2 = .ends (.ok (.session (some id))) := by
  rw [connected, h]
  rfl

theorem makes_visit (named : client.sessions.Named) (scope : Scope) (language root : String) :
    Makes warrant (client.scene letters) (Halting Activity.discarded?)
      (client.visit setup.recorded scope language root) := by
  have hu := client.unseen_openScope scope
  have hnamed : (client.openScope scope).sessions.Named := by
    rw [show (client.openScope scope).sessions = client.sessions from congrArg Scene.sessions (hu letters)]
    exact named
  exact hu.makes ((makes_start _ setup letters hnamed language root).andThen fun _ _ _ =>
    makes_afterArrival setup scope _)

theorem makes_download (language : String) :
    Makes warrant (client.scene letters) (Halting Activity.discarded?) (client.download setup.recorded language) := by
  have hu := client.unseen_log (.info ("Downloading server for " ++ language))
  have ha : Makes warrant _ _ _ :=
    makes_ask (client.log (.info ("Downloading server for " ++ language))) setup letters (.download language) rfl
  exact hu.makes (ha.afterDownload language)

/-- A binding is connected within a warrant to connect it to what the call gives back. -/
theorem makes_connected {number : Nat}
    {step : Binding → Client (σ × List Exchange) × Progress JoinPhase (Option String)}
    (h : ∀ binding, client.bindings[number]? = some binding →
      (∀ id, (step binding).2 = .ends (.ok (some id)) → warrant.connects number id) →
      Makes warrant (client.scene letters) Whatever (step binding))
    (connects : ∀ id, (client.withBinding number fun binding => connected number (step binding)).2 =
      .ends (.ok (.session (some id))) → warrant.connects number id) :
    Makes warrant (client.scene letters) (Halting Activity.discarded?)
      (client.withBinding number fun binding => connected number (step binding)) := by
  refine makes_withBinding fun binding found => ?_
  refine (h binding found fun id hid => connects id ?_).part (fun _ => rfl) _
  rw [withBinding, found]
  exact connected_eq hid

/-- **An operation begins**: its changes are within any warrant that covers it. -/
theorem makes_beginOperation (named : client.sessions.Named) {operation : Operation}
    (covers : warrant.Covers client.bindings operation)
    (connects : ∀ number id, operation.connected? = some number →
      (client.beginOperation setup.recorded operation).2 = .ends (.ok (.session (some id))) →
      warrant.connects number id) :
    Makes warrant (client.scene letters) (Halting Activity.discarded?)
      (client.beginOperation setup.recorded operation) := by
  cases operation with
  | enter scope => exact makes_nothing (client.unseen_openScope scope letters) (halting_ends _)
  | close scope => exact (makes_close setup scope).silently fun _ => rfl
  | visit scope language root => exact makes_visit setup named scope language root
  | start language root => exact (client.makes_start setup letters named language root).part (fun _ => rfl) _
  | stop id => exact (client.makes_stop setup letters id).silently fun _ => rfl
  | stopAll => exact (makes_stopEach setup _).silently fun _ => rfl
  | openDocument id path language text =>
    exact client.makes_documentCall setup letters id (.opening path language text) fun _ => covers
  | changeDocument id path text =>
    exact client.makes_documentCall setup letters id (.changing path text) fun _ => covers
  | closeDocument id path => exact client.makes_documentCall setup letters id (.closing path) fun _ => covers
  | request id method params delay =>
    exact (client.makes_asking setup letters id method params delay).part (fun _ => rfl) _
  | notify id method params =>
    have hn : Makes warrant _ _ _ :=
      client.makes_notifyIfPrintable setup letters (.passed id method params) rfl rfl rfl fun _ => covers
    exact hn.noticing .plain
  | hover _ _ _ | definition _ _ _ | references _ _ _ _ | symbols _ _ =>
    exact (client.makes_query setup letters _ _ _ _).queried
  | inspect language =>
    have ha : Makes warrant _ _ _ := client.makes_ask setup letters (.inspect language) rfl
    exact ha.afterServerInspection language
  | download language => exact makes_download setup language
  | lookupDefinition path position => exact (client.makes_lookupDefinition setup letters path position).queried
  | lookupReferences path position => exact (client.makes_lookupReferences setup letters path position).queried
  | connect number =>
    exact makes_connected (fun binding _ => client.makes_connect setup letters binding named)
      fun id => connects number id rfl
  | disconnect number =>
    exact makes_withBinding fun binding found =>
      (client.makes_closeBinding setup letters binding covers.1 (covers.2 binding found) true).noticing _
  | openBinding number text =>
    exact makes_withBinding fun binding found =>
      (client.makes_openBinding setup letters binding covers.1 (covers.2 binding found) text).noticing _
  | updateBinding number text =>
    exact makes_withBinding fun binding found =>
      (client.makes_updateBinding setup letters binding (covers.2 binding found) text).noticing _
  | closeBinding number =>
    exact makes_withBinding fun binding found =>
      (client.makes_closeBinding setup letters binding covers.1 (covers.2 binding found) false).noticing _
  | bindingHover number position =>
    exact makes_withBinding fun binding _ => (client.makes_bindingHover setup letters binding position).queried
  | bindingDefinition number position =>
    exact makes_withBinding fun binding _ => (client.makes_bindingDefinition setup letters binding position).queried
  | bindingReferences number position =>
    exact makes_withBinding fun binding _ => (client.makes_bindingReferences setup letters binding position).queried

/-- **An activity goes on**: its changes are within any warrant that covers it. -/
theorem makes_resumeActivity (cancelled : Bool) {activity : Activity} (covers : warrant.CoversActivity activity)
    (connects : ∀ number id, activity.connected? = some number →
      (client.resumeActivity setup.recorded cancelled activity).2 = .ends (.ok (.session (some id))) →
      warrant.connects number id)
    (halts : ∀ number, activity.discarded? = some number → (client.scene letters).Halts number) :
    Makes warrant (client.scene letters) (Halting Activity.discarded?)
      (client.resumeActivity setup.recorded cancelled activity) := by
  cases activity with
  | joining phase => exact (client.makes_resumeJoin letters cancelled phase).part (fun _ => rfl) _
  | connecting number phase =>
    exact makes_connected (fun binding _ => client.makes_resumeConnect letters binding cancelled phase)
      fun id => connects number id rfl
  | stopping phase => exact (client.makes_resumeStop setup letters cancelled halts).silently fun _ => rfl
  | stoppingAll phase => exact (makes_resumeStopAll setup cancelled halts).silently fun _ => rfl
  | closing scope phase => exact (makes_resumeClose setup cancelled scope halts).silently fun _ => rfl
  | arriving scope phase =>
    exact (client.makes_resumeJoin letters cancelled phase).andThen fun _ _ _ => makes_afterArrival setup scope _
  | departing scope started phase =>
    exact (makes_resumeClose setup cancelled scope halts).andThen fun _ _ hp => makes_afterDeparture scope started hp
  | noticing use phase => exact (client.makes_resumeUse setup letters cancelled phase covers).noticing use
  | requesting phase => exact (client.makes_resumeRequest setup letters cancelled phase).part (fun _ => rfl) _
  | querying phase =>
    have hr : Makes warrant _ _ _ := client.makes_resumeRequest setup letters cancelled phase.request
    exact (hr.follow (unseen_afterQuery _ phase.query _)).queried
  | inspecting ticket language =>
    have hg : Makes warrant _ _ _ := client.makes_goOn setup letters cancelled (.inspect language)
    exact hg.afterServerInspection language
  | downloading ticket language =>
    have hg : Makes warrant _ _ _ := client.makes_goOn setup letters cancelled (.download language)
    exact hg.afterDownload language

end Operations

end Client

end LanguageSessions
