import LanguageSessions.Client.Operation
import LanguageSessions.Proofs.Client.Steps

/-!
# Operations that use sessions

A notice about a document of a ready session is handed over after the session took it down (`does_document`), a request
or a query as a letter that somebody asked for (`does_asking`). What else there is in these operations does not show in
the account (`Accords`): bindings, routes and starts that are joined, and whatever becomes of an answer.
-/

namespace LanguageSessions

/-! ## What somebody asks for -/

/-- The method of the query that an operation makes, if it makes one. -/
def Operation.question? : Operation → Option String
  | .hover _ _ _ | .bindingHover _ _ => some "textDocument/hover"
  | .definition _ _ _ | .lookupDefinition _ _ | .bindingDefinition _ _ => some "textDocument/definition"
  | .references _ _ _ _ | .lookupReferences _ _ | .bindingReferences _ _ => some "textDocument/references"
  | .symbols _ _ => some "textDocument/documentSymbol"
  | _ => none

/-- Who calls an operation asks for a letter. -/
inductive Operation.Writes : Operation → Letter → Prop
  | request {session method : String} {params : Json} {delay : Option Binary64} {number : Nat} {id : RequestId} :
      Writes (.request session method params delay) (.own session number (.query id method params))
  | query {operation : Operation} {session method : String} {params : Json} {number : Nat} {id : RequestId}
      (asks : operation.question? = some method) : Writes operation (.own session number (.query id method params))
  | notify {session method : String} {params : Json} :
      Writes (.notify session method params) (.passed session method params)

namespace Client

open Account

variable {σ : Type} {role : Role}

/-! ## What does not show in the account -/

section Accords

variable (client : Client (σ × List Exchange)) (setup : Setup σ)

theorem accords_afterDocumentClose (path : String) (told : Progress NoticePhase Unit) :
    Accords client (client.afterDocumentClose path told).1 := by
  unfold afterDocumentClose
  split
  · exact .refl client
  · exact .refl client
  · split
    · exact client.accords_log _
    · exact .refl client

theorem accords_afterQuery (query : Query) (asked : Progress RequestPhase Json) :
    Accords client (client.afterQuery query asked).1 := by
  unfold afterQuery
  split
  · exact .refl client
  · split
    · exact .refl client
    · exact client.accords_logAll _

theorem accords_listen : Accords client client.listen := by
  unfold listen
  split
  · exact .refl client
  · exact client.accords_log (.info "Initializing LSP session manager")

theorem accords_openScope (scope : Scope) : Accords client (client.openScope scope) := by
  cases scope with
  | sessions => exact client.accords_listen
  | everything =>
    refine client.accords_listen.trans ?_
    unfold openScope
    dsimp only
    split <;> exact fun _ => rfl

theorem accords_join (attempt : Nat) : Accords client (client.join attempt).1 := by
  unfold join
  split <;> exact .refl client

theorem accords_start (language root : String) : Accords client (client.start setup.recorded language root).1 := by
  unfold start
  split
  · exact .refl client
  · refine client.accords_listen.trans ?_
    unfold startAt
    split
    · exact accords_log _ _
    · split
      · exact (accords_log _ _).trans (accords_join _ _)
      · exact fun letters => accords_join _ _ letters

theorem accords_resumeJoin (cancelled : Bool) (phase : JoinPhase) :
    Accords client (client.resumeJoin cancelled phase).1 := by
  unfold resumeJoin
  split
  · exact .refl client
  · split <;> exact .refl client

theorem accords_afterConnect (number : Nat) (binding : Binding) (language : String)
    (started : Progress JoinPhase String) : Accords client (client.afterConnect number binding language started).1 := by
  unfold afterConnect
  split
  · exact .refl client
  · exact accords_log { client.changeBinding number _ with routes := _ } _
  · split
    · exact accords_log (client.changeBinding number _) _
    · exact .refl client

theorem accords_connect (number : Nat) (binding : Binding) :
    Accords client (client.connect setup.recorded number binding).1 := by
  unfold connect
  split
  · exact .refl client
  · split
    · exact .refl client
    · exact (accords_start (client.changeBinding number _) setup _ _).trans (accords_afterConnect _ _ _ _ _)

theorem accords_resumeConnect (cancelled : Bool) (number : Nat) (binding : Binding) (phase : JoinPhase) :
    Accords client (client.resumeConnect cancelled number binding phase).1 :=
  (client.accords_resumeJoin cancelled phase).trans (accords_afterConnect _ _ _ _ _)

theorem accords_afterBindingOpen (number : Nat) (opened : Progress NoticePhase Unit) :
    Accords client (client.afterBindingOpen number opened).1 := by
  unfold afterBindingOpen
  split <;> exact .refl client

theorem accords_afterBindingClose (number : Nat) (binding : Binding) (leaving : Bool)
    (closed : Progress NoticePhase Unit) : Accords client (client.afterBindingClose number binding leaving closed).1 := by
  unfold afterBindingClose
  split
  · cases leaving <;> exact .refl client
  · exact .refl client

theorem accords_afterServerInspection (language : String) (known : Progress Nat Availability) :
    Accords client (client.afterServerInspection language known).1 := by
  cases known <;> exact .refl client

theorem accords_afterDownload (language : String) (got : Progress Nat String) :
    Accords client (client.afterDownload language got).1 := by
  unfold afterDownload
  split <;> exact .refl client

end Accords

/-! ## Documents -/

section Documents

variable {client : Client (σ × List Exchange)} {letters : List Letter} (setup : Setup σ)

/-- A notice about a document of a ready session is handed over, after the session took it down. -/
theorem does_document {next : Client (σ × List Exchange)} {id method : String} {params : Json} {number : Nat}
    {session : Session} {f : Session → Session} (notice : DocumentNotice)
    (ready : client.ready? id = some (number, session))
    (same : ∀ session : Session, session.Advances (f session) ∧ (f session).stage = session.stage)
    (changed : next.account letters = (client.changeSession number f).account letters)
    (envelope : notice.envelope = Message.notice method params) :
    Does role (client.account letters) Anything (next.notify setup.recorded id method params) := by
  obtain ⟨listed, found, hready⟩ := client.ready?_eq_some_iff.1 ready
  have hd : Deed role (client.account letters) (next.account letters) := by
    rw [changed]
    exact .change same
  have hfound : (client.sessions.modify number f).session? number = some (f session) := by
    rw [SessionRegistry.session?_modify, if_pos rfl, found, Option.map_some]
  have permits : (next.account letters).Permits role (.own id number (.document notice)) := by
    rw [changed]
    refine .document notice listed hfound ?_
    rw [(same session).2]
    exact beq_iff_eq.1 hready
  have hprint : (Message.notice method params).print = (Letter.own id number (.document notice)).text :=
    congrArg Json.print envelope.symm
  exact ((next.does_notify setup letters rfl hprint permits).weaken fun _ _ => trivial).after (.single hd)

/-- A session that remembers other versions is as far as before. -/
theorem advances_versions (session : Session) (versions : Entries String Int) :
    session.Advances { session with versions } ∧ { session with versions }.stage = session.stage :=
  ⟨⟨rfl, rfl, rfl, Nat.le_refl _⟩, rfl⟩

theorem does_openDocument (id path language text : String) :
    Does role (client.account letters) Anything (client.openDocument setup.recorded id path language text) := by
  unfold openDocument
  split
  · exact (Accords.refl client).anything
  · next number _ ready =>
    exact does_document setup (.opened (Uri.ofPath path) language 1 text) ready
      (fun session => advances_versions session _) rfl rfl

theorem does_changeDocument (id path text : String) :
    Does role (client.account letters) Anything (client.changeDocument setup.recorded id path text) := by
  unfold changeDocument
  split
  · exact (Accords.refl client).anything
  · next number session ready =>
    refine does_document (f := fun session => session.bumpVersion (Uri.ofPath path)) setup
      (.changed (Uri.ofPath path) (session.nextVersion (Uri.ofPath path)).1 text) ready
      (fun session => advances_versions session _) ?_ rfl
    split
    · rfl
    · exact account_log _ _ _

theorem does_closeDocument (id path : String) :
    Does role (client.account letters) Anything (client.closeDocument setup.recorded id path) := by
  unfold closeDocument
  split
  · exact (Accords.refl client).anything
  · next number _ ready =>
    refine Does.follow (does_document (f := fun session => session.closeDocument (Uri.ofPath path)) setup
      (.closed (Uri.ofPath path)) ready (fun session => advances_versions session _) rfl rfl)
      (accords_afterDocumentClose _ path _)

theorem does_openBinding (number : Nat) (binding : Binding) (text : String) :
    Does role (client.account letters) Anything (client.openBinding setup.recorded number binding text) := by
  unfold openBinding
  split
  · exact (does_openDocument setup _ _ _ _).follow (accords_afterBindingOpen _ number _)
  · exact (Accords.refl client).anything

theorem does_updateBinding (binding : Binding) (text : String) :
    Does role (client.account letters) Anything (client.updateBinding setup.recorded binding text) := by
  unfold updateBinding
  split
  · exact (Accords.refl client).anything
  · exact does_changeDocument setup _ _ _

theorem does_closeBinding (number : Nat) (binding : Binding) (leaving : Bool) :
    Does role (client.account letters) Anything (client.closeBinding setup.recorded number binding leaving) := by
  unfold closeBinding
  split
  · cases leaving <;> exact (Accords.refl client).anything
  · exact (does_closeDocument setup _ _).follow (accords_afterBindingClose _ number binding leaving _)

/-- A notification goes on, whatever it is sent for. -/
theorem does_resumeUse (ho : (client.account letters).Coherent) (cancelled : Bool) (phase : NoticePhase)
    (use : NoticeUse) :
    Does role (client.account letters) Anything (client.resumeUse setup.recorded cancelled phase use) := by
  have hnotice : Does role (client.account letters) Anything (client.resumeNotice setup.recorded cancelled phase) :=
    (client.does_resumeNotice setup letters ho cancelled phase).weaken fun _ _ => trivial
  cases use with
  | plain => exact hnotice
  | closing path => exact hnotice.follow (accords_afterDocumentClose _ path _)
  | openingBinding number => exact hnotice.follow (accords_afterBindingOpen _ number _)
  | closingBinding number leaving =>
    unfold resumeUse
    dsimp only
    split
    · next binding _ =>
      exact (hnotice.follow (accords_afterDocumentClose _ binding.path _)).follow
        (accords_afterBindingClose _ number binding leaving _)
    · exact (Accords.refl client).anything

end Documents

/-! ## Requests and queries -/

section Requests

variable {client : Client (σ × List Exchange)} {letters : List Letter} (setup : Setup σ)

/-- A request that somebody asks for is handed over if its session is registered. -/
theorem does_asking (ho : (client.account letters).Coherent) {session method : String} {params : Json}
    (delay : Option Binary64) (writes : ∀ number id, role.writes (.own session number (.query id method params))) :
    Does role (client.account letters) Anything
      (client.requestIfPrintable setup.recorded session method params delay) := by
  unfold requestIfPrintable
  split
  · exact does_deed (.pending ho.numbered.moves_nextId) trivial
  cases hreg : client.sessions.has session with
  | false =>
    rw [request, hreg, if_pos (by decide)]
    exact (Accords.refl client).anything
  | true =>
    obtain ⟨number, listed⟩ : ∃ number, client.sessions.number? session = some number := Option.isSome_iff_exists.1 hreg
    let letter : RequestId → Letter := fun id => .own session number (.query id method params)
    have hdeeds : ∀ id pending reply, Pending.Moves role.answers client.pending pending →
        Deeds role (client.account letters) ({ client.account letters with pending }.handOver (letter id) reply) :=
      fun id pending reply moves => .tail (.single (.pending moves)) (.hand reply (.query listed (writes number id)))
    have hd := client.does_request setup letters delay ho hreg ho.numbered (fun _ => rfl) (fun _ => rfl) hdeeds
    exact hd.weaken fun _ _ => trivial

theorem does_query (ho : (client.account letters).Coherent) (query : Query) {id method : String} {params : Members}
    (writes : ∀ number request, role.writes (.own id number (.query request method (.object params)))) :
    Does role (client.account letters) Anything (client.query setup.recorded query id method params) :=
  (does_asking setup ho none writes).follow (accords_afterQuery _ query _)

theorem does_lookupDefinition (ho : (client.account letters).Coherent) (path : String) (position : Position)
    (writes : ∀ session number id params,
      role.writes (.own session number (.query id "textDocument/definition" params))) :
    Does role (client.account letters) Anything (client.lookupDefinition setup.recorded path position) := by
  unfold lookupDefinition
  split
  · exact (Accords.refl client).anything
  · have ha := client.accords_log (lookingUp "definition" path position)
    exact ha.does (does_query setup (ha letters ▸ ho) _ fun number id => writes _ number id _)

theorem does_lookupReferences (ho : (client.account letters).Coherent) (path : String) (position : Position)
    (writes : ∀ session number id params,
      role.writes (.own session number (.query id "textDocument/references" params))) :
    Does role (client.account letters) Anything (client.lookupReferences setup.recorded path position) := by
  unfold lookupReferences
  split
  · exact (Accords.refl client).anything
  · have ha := client.accords_log (lookingUp "references" path position)
    exact ha.does (does_query setup (ha letters ▸ ho) _ fun number id => writes _ number id _)

theorem does_bindingHover (ho : (client.account letters).Coherent) (binding : Binding) (position : Position)
    (writes : ∀ session number id params, role.writes (.own session number (.query id "textDocument/hover" params))) :
    Does role (client.account letters) Anything (client.bindingHover setup.recorded binding position) := by
  unfold bindingHover
  split
  · exact does_query setup ho .hover fun number id => writes _ number id _
  · exact (Accords.refl client).anything

theorem does_bindingDefinition (ho : (client.account letters).Coherent) (binding : Binding) (position : Position)
    (writes : ∀ session number id params,
      role.writes (.own session number (.query id "textDocument/definition" params))) :
    Does role (client.account letters) Anything (client.bindingDefinition setup.recorded binding position) := by
  unfold bindingDefinition
  split
  · exact does_query setup ho .definition fun number id => writes _ number id _
  · exact does_lookupDefinition setup ho binding.path position writes

theorem does_bindingReferences (ho : (client.account letters).Coherent) (binding : Binding) (position : Position)
    (writes : ∀ session number id params,
      role.writes (.own session number (.query id "textDocument/references" params))) :
    Does role (client.account letters) Anything (client.bindingReferences setup.recorded binding position) := by
  unfold bindingReferences
  split
  · exact does_query setup ho .references fun number id => writes _ number id _
  · exact does_lookupReferences setup ho binding.path position writes

end Requests

end Client

end LanguageSessions
