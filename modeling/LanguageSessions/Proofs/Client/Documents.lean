import LanguageSessions.Proofs.Client.Handed

/-!
# Notices about documents

What a server is told about documents is a list of notices. `recorded` is the version of a document that such a list
leaves behind, and in a list that is `InOrder` each notice carries the version that those before it ask for.

A call about a document of a ready session takes one notice down in the session and hands it over
(`records_beginOperation`). So the versions of the session stay those that the notices leave behind (`Tracks.step`).
-/

namespace LanguageSessions

/-- What holds at every place of a list, and of one more item behind the list, holds at every place of both together. -/
theorem forall_split_concat {α : Type} {P : List α → α → Prop} {items : List α} {last : α}
    (h : ∀ before item after, items = before ++ item :: after → P before item) (hl : P items last) :
    ∀ before item after, items ++ [last] = before ++ item :: after → P before item := by
  intro before item after heq
  rcases List.eq_nil_or_concat after with rfl | ⟨front, final, rfl⟩
  · obtain ⟨rfl, hlast⟩ := List.append_inj' heq rfl
    cases hlast
    exact hl
  · rw [List.concat_eq_append, ← List.cons_append, ← List.append_assoc] at heq
    exact h before item front (List.append_inj' heq rfl).1

/-! ## Notices -/

/-- A notice about a document. -/
inductive DocumentNotice where
  | opened (uri language : String) (version : Int) (text : String)
  | changed (uri : String) (version : Int) (text : String)
  | closed (uri : String)
  deriving DecidableEq, Repr

namespace DocumentNotice

/-- The document that a notice is about. -/
def uri : DocumentNotice → String
  | .opened uri _ _ _ | .changed uri _ _ | .closed uri => uri

/-- The version that a notice carries. -/
def version? : DocumentNotice → Option Int
  | .opened _ _ version _ | .changed _ version _ => some version
  | .closed _ => none

/-- The envelope of a notice. -/
def envelope : DocumentNotice → Json
  | .opened uri language version text =>
    Message.notice "textDocument/didOpen" (.object
      [("textDocument", .object
          [("uri", .string uri), ("languageId", .string language), ("version", .int version), ("text", .string text)])])
  | .changed uri version text =>
    Message.notice "textDocument/didChange" (.object
      [("textDocument", .object [("uri", .string uri), ("version", .int version)]),
       ("contentChanges", .array [.object [("text", .string text)]])])
  | .closed uri =>
    Message.notice "textDocument/didClose" (.object [("textDocument", .object [("uri", .string uri)])])

/-- The text of a notice. -/
def print (notice : DocumentNotice) : String := notice.envelope.print

/-- The version of a document behind notices: the one that the last notice about it carries. There is none if that
notice closed the document, or if there is no such notice. -/
def recorded (notices : List DocumentNotice) (uri : String) : Option Int :=
  (notices.filter fun notice => notice.uri = uri).getLast?.bind version?

/-- A notice carries the version that it must carry behind others: the first one if it opens a document, and the next
one if it changes a document. -/
def Follows (before : List DocumentNotice) : DocumentNotice → Prop
  | .opened _ _ version _ => version = 1
  | .changed uri version _ => version = (recorded before uri).getD 0 + 1
  | .closed _ => True

/-- Every notice carries the version that it must carry behind those before it. -/
def InOrder (notices : List DocumentNotice) : Prop :=
  ∀ before notice after, notices = before ++ notice :: after → notice.Follows before

theorem recorded_concat (notices : List DocumentNotice) (notice : DocumentNotice) (uri : String) :
    recorded (notices ++ [notice]) uri = if notice.uri = uri then notice.version? else recorded notices uri := by
  rw [recorded, List.filter_append, List.filter_singleton]
  by_cases h : notice.uri = uri
  · simp [h]
  · simp [h, recorded]

theorem inOrder_nil : InOrder [] := fun before _ _ h => by simp at h

theorem InOrder.concat {notices : List DocumentNotice} {notice : DocumentNotice} (h : InOrder notices)
    (hf : notice.Follows notices) : InOrder (notices ++ [notice]) := forall_split_concat h hf

end DocumentNotice

open DocumentNotice

/-- A call about a document of a session. -/
inductive DocumentCall where
  | opening (path language text : String)
  | changing (path text : String)
  | closing (path : String)
  deriving DecidableEq, Repr

namespace DocumentCall

/-- The operation that is called. -/
def operation (session : String) : DocumentCall → Operation
  | .opening path language text => .openDocument session path language text
  | .changing path text => .changeDocument session path text
  | .closing path => .closeDocument session path

/-- The notice that a call hands over, by the versions of the documents before it. -/
def notice (versions : String → Option Int) : DocumentCall → DocumentNotice
  | .opening path language text => .opened (Uri.ofPath path) language 1 text
  | .changing path text => .changed (Uri.ofPath path) ((versions (Uri.ofPath path)).getD 0 + 1) text
  | .closing path => .closed (Uri.ofPath path)

/-- What a call comes to if its session is not ready. -/
def refusal (session : String) : DocumentCall → Except Fault Answer
  | .opening _ _ _ | .changing _ _ => .error (.notInitialized session)
  | .closing _ => .ok .nothing

theorem follows_notice (notices : List DocumentNotice) (call : DocumentCall) :
    (call.notice (recorded notices)).Follows notices := by
  cases call with
  | opening path language text => exact rfl
  | changing path text => exact rfl
  | closing path => trivial

end DocumentCall

/-- A session takes a notice down. -/
def Session.takeDown (session : Session) (notice : DocumentNotice) : Session :=
  { session with
    versions := match notice.version? with
      | some version => session.versions.set notice.uri version
      | none => session.versions.erase notice.uri }

theorem Session.get?_takeDown (session : Session) (notice : DocumentNotice) (uri : String) :
    (session.takeDown notice).versions.get? uri =
      if notice.uri = uri then notice.version? else session.versions.get? uri := by
  unfold takeDown
  cases notice.version? with
  | some version => exact Entries.get?_set _ _ _ _
  | none => exact Entries.get?_erase _ _ _

theorem Session.nextVersion_fst (session : Session) (uri : String) :
    (session.nextVersion uri).1 = (session.versions.get? uri).getD 0 + 1 := by
  unfold nextVersion
  cases session.versions.get? uri <;> rfl

/-- To take a change down moves the document to its next version. -/
theorem Session.takeDown_changed (session : Session) (uri text : String) :
    session.takeDown (.changed uri (session.nextVersion uri).1 text) = session.bumpVersion uri := rfl

namespace Client

variable {σ : Type}

/-! ## Notices that are handed over -/

/-- A notice is taken down in the session with a number and handed over under an identifier; nothing else is. -/
structure Records (id : String) (number : Nat) (notice : DocumentNotice) (before after : Client σ) : Prop where
  sessions : after.sessions = before.sessions.modify number (·.takeDown notice)
  handed : ∀ other, after.handed other = before.handed other ++ if id = other then [notice.print] else []
  launches : ∀ attempt, .launch attempt ∈ after.queue → .launch attempt ∈ before.queue

section Records

variable {id : String} {number : Nat} {notice : DocumentNotice} {first second third : Client σ}

theorem Records.trans_aside (h : Records id number notice first second) (h' : Aside second third) :
    Records id number notice first third where
  sessions := h'.sessions.trans h.sessions
  handed other := (h'.handed other).trans (h.handed other)
  launches attempt ha := h.launches attempt (h'.launches attempt ha)

theorem Aside.trans_records (h : Aside first second) (h' : Records id number notice second third) :
    Records id number notice first third where
  sessions := by rw [h'.sessions, h.sessions]
  handed other := by rw [h'.handed, h.handed]
  launches attempt ha := h.launches attempt (h'.launches attempt ha)

end Records

section Calls

variable (client : Client σ) (setup : Setup σ)

theorem ready?_eq_some_iff {id : String} {number : Nat} {session : Session} :
    client.ready? id = some (number, session) ↔
      client.sessions.number? id = some number ∧ client.sessions.session? number = some session ∧
        session.isReady = true := by
  unfold ready? SessionRegistry.get?
  cases hn : client.sessions.number? id with
  | none => simp
  | some n =>
    rw [Option.bind_some]
    cases hs : client.sessions.session? n with
    | none =>
      refine ⟨nofun, fun ⟨h, h', _⟩ => ?_⟩
      cases h
      cases hs.symm.trans h'
    | some found =>
      dsimp only
      split
      · next hr =>
        constructor
        · intro h
          cases h
          exact ⟨rfl, hs, hr⟩
        · rintro ⟨h, h', -⟩
          cases h
          cases hs.symm.trans h'
          rfl
      · next hr =>
        refine ⟨nofun, fun ⟨h, h', hr'⟩ => ?_⟩
        cases h
        cases hs.symm.trans h'
        exact absurd hr' hr

/-- What is done to a session depends on that session alone. -/
theorem changeSession_congr {number : Nat} {session : Session} {f g : Session → Session}
    (hs : client.sessions.session? number = some session) (h : f session = g session) :
    client.changeSession number f = client.changeSession number g := by
  have hm : client.sessions.sessions.modify number f = client.sessions.sessions.modify number g := by
    refine List.ext_getElem? fun n => ?_
    rw [List.getElem?_modify, List.getElem?_modify]
    split
    · next hn =>
      subst hn
      rw [show client.sessions.sessions[number]? = some session from hs]
      exact congrArg some h
    · rfl
  rw [changeSession, changeSession, SessionRegistry.modify, SessionRegistry.modify, hm]

theorem handed_note_send (id text other : String) :
    (client.note (.called (.send id text))).handed other =
      client.handed other ++ if id = other then [text] else [] := by
  rw [handed, note, List.filterMap_append, handed]
  by_cases h : id = other <;> simp [Effect.handed?, h]

/-- A notice was taken down and is then handed over; what becomes of it there changes nothing any more. -/
theorem records_notify {id : String} {number : Nat} {notice : DocumentNotice} {method : String} {params : Json}
    {before : Client σ} (hn : notice.envelope = Message.notice method params)
    (ha : Aside (before.changeSession number (·.takeDown notice)) client) :
    Records id number notice before (client.notify setup id method params).1 := by
  have hrecords : Records id number notice before (client.note (.called (.send id notice.print))) := by
    constructor
    case sessions => exact ha.sessions
    case handed =>
      intro other
      rw [handed_note_send, ha.handed]
      rfl
    case launches => exact ha.launches
  rw [print, hn] at hrecords
  exact (hrecords.trans_aside (aside_afterCall _ _)).trans_aside (aside_afterNotice _ _ _)

/-- A call about a document of a session that is not ready is refused, and does nothing. -/
theorem beginOperation_of_unready {id : String} (h : client.ready? id = none) (call : DocumentCall) :
    client.beginOperation setup (call.operation id) = (client, .ends (call.refusal id)) := by
  cases call with
  | opening path language text =>
    change silently (.noticing .plain) (client.openDocument setup id path language text) = _
    rw [openDocument, h]
    rfl
  | changing path text =>
    change silently (.noticing .plain) (client.changeDocument setup id path text) = _
    rw [changeDocument, h]
    rfl
  | closing path =>
    change silently (.noticing (.closing path)) (client.closeDocument setup id path) = _
    rw [closeDocument, h]
    rfl

/-- **A call about a document of a ready session takes its notice down and hands it over.** -/
theorem records_beginOperation {id : String} {number : Nat} {session : Session}
    (h : client.ready? id = some (number, session)) (call : DocumentCall) :
    Records id number (call.notice session.versions.get?) client
      (client.beginOperation setup (call.operation id)).1 := by
  cases call with
  | opening path language text =>
    change Records _ _ _ _ (client.openDocument setup id path language text).1
    rw [openDocument, h]
    exact records_notify _ setup rfl (.refl _)
  | changing path text =>
    change Records _ _ _ _ (client.changeDocument setup id path text).1
    obtain ⟨-, hs, -⟩ := client.ready?_eq_some_iff.1 h
    rw [changeDocument, h, DocumentCall.notice, ← session.nextVersion_fst]
    refine records_notify _ setup rfl ?_
    have hbump := session.takeDown_changed (Uri.ofPath path) text
    rw [client.changeSession_congr (g := fun session => session.bumpVersion (Uri.ofPath path)) hs hbump]
    split
    · exact .refl _
    · exact aside_log _ _
  | closing path =>
    change Records _ _ _ _ (client.closeDocument setup id path).1
    rw [closeDocument, h]
    dsimp only
    exact (records_notify _ setup rfl (.refl _)).trans_aside (aside_afterDocumentClose _ _ _)

end Calls

/-! ## The session's versions follow the notices -/

/-- A step about at most one document. -/
inductive DocumentStep (before after : Client σ) : Prop where
  | aside (aside : Aside before after)
  /-- A call about a document of a ready session hands over its notice. -/
  | records {id : String} {number : Nat} {session : Session} (call : DocumentCall)
      (ready : before.ready? id = some (number, session))
      (records : Records id number (call.notice session.versions.get?) before after)

/-- The session with a number is the ready one under an identifier. Its versions are those that notices leave behind,
and each of the notices carries the version that it must carry. -/
structure Tracks (id : String) (number : Nat) (notices : List DocumentNotice) (client : Client σ) : Prop where
  listed : client.sessions.number? id = some number
  alone : ∀ other, client.sessions.number? other = some number → other = id
  session : ∃ session, client.sessions.session? number = some session ∧ session.isReady = true ∧
    ∀ uri, session.versions.get? uri = recorded notices uri
  inOrder : InOrder notices

section Steps

variable {first second third : Client σ}

theorem DocumentStep.trans_aside (h : DocumentStep first second) (h' : Aside second third) :
    DocumentStep first third := by
  cases h with
  | aside h => exact .aside (h.trans h')
  | records call ready h => exact .records call ready (h.trans_aside h')

theorem Aside.trans_step (h : Aside first second) (h' : DocumentStep second third) : DocumentStep first third := by
  cases h' with
  | aside h' => exact .aside (h.trans h')
  | records call ready h' =>
    refine .records call ?_ (h.trans_records h')
    rw [ready?, h.sessions] at ready
    exact ready

theorem DocumentStep.launches (h : DocumentStep first second) {attempt : Nat} (ha : .launch attempt ∈ second.queue) :
    .launch attempt ∈ first.queue := by
  cases h with
  | aside h => exact h.launches attempt ha
  | records _ _ h => exact h.launches attempt ha

/-- A call about a document begins: if its session is ready, its notice is handed over. -/
theorem documentStep_beginOperation (client : Client σ) (setup : Setup σ) (id : String) (call : DocumentCall) :
    DocumentStep client (client.beginOperation setup (call.operation id)).1 := by
  cases h : client.ready? id with
  | none =>
    rw [client.beginOperation_of_unready setup h call]
    exact .aside (.refl client)
  | some found => exact .records call h (client.records_beginOperation setup h call)

/-- What a call about a document waits for is an answer. -/
theorem onlyWaits_beginOperation {client : Client σ} {setup : Setup σ} {id : String} {call : DocumentCall}
    {activity : Activity} (h : (client.beginOperation setup (call.operation id)).2 = .waits activity) :
    activity.onlyWaits = true := by
  cases call with
  | opening path language text => exact (goesAside_map (fun _ => rfl) _ (.refl _)).onlyWaits activity h
  | changing path text => exact (goesAside_map (fun _ => rfl) _ (.refl _)).onlyWaits activity h
  | closing path => exact (goesAside_map (fun _ => rfl) _ (.refl _)).onlyWaits activity h

end Steps

section Tracks

variable {id : String} {number : Nat} {notices : List DocumentNotice} {before after : Client σ}

theorem Tracks.ready (h : Tracks id number notices before) :
    ∃ session, before.ready? id = some (number, session) ∧ session.versions.get? = recorded notices := by
  obtain ⟨session, hs, hr, hv⟩ := h.session
  exact ⟨session, before.ready?_eq_some_iff.2 ⟨h.listed, hs, hr⟩, funext hv⟩

theorem Tracks.aside (h : Tracks id number notices before) (ha : Aside before after) :
    Tracks id number notices after where
  listed := ha.sessions ▸ h.listed
  alone := ha.sessions ▸ h.alone
  session := ha.sessions ▸ h.session
  inOrder := h.inOrder

/-- A notice is handed over for the session itself. -/
theorem Tracks.records (h : Tracks id number notices before) {notice : DocumentNotice}
    (hf : notice.Follows notices) (hr : Records id number notice before after) :
    Tracks id number (notices ++ [notice]) after where
  listed := by rw [hr.sessions]; exact h.listed
  alone other ho := by
    rw [hr.sessions] at ho
    exact h.alone other ho
  session := by
    obtain ⟨session, hs, hready, hv⟩ := h.session
    refine ⟨session.takeDown notice, ?_, hready, fun uri => ?_⟩
    · rw [hr.sessions, SessionRegistry.session?_modify, if_pos rfl, hs, Option.map_some]
    · rw [session.get?_takeDown, recorded_concat, hv]
  inOrder := h.inOrder.concat hf

/-- A notice is handed over for another session. -/
theorem Tracks.records_of_ne (h : Tracks id number notices before) {other : String} {n : Nat} (hne : n ≠ number)
    {notice : DocumentNotice} (hr : Records other n notice before after) : Tracks id number notices after where
  listed := by rw [hr.sessions]; exact h.listed
  alone other ho := by
    rw [hr.sessions] at ho
    exact h.alone other ho
  session := by
    rw [hr.sessions, SessionRegistry.session?_modify, if_neg hne]
    exact h.session
  inOrder := h.inOrder

/-- **In every step the versions of the session follow the notices that are handed over for it.** -/
theorem Tracks.step (h : Tracks id number notices before) (hs : DocumentStep before after) :
    ∃ more, Tracks id number (notices ++ more) after ∧ after.handed id = before.handed id ++ more.map print := by
  cases hs with
  | aside ha =>
    refine ⟨[], ?_, ?_⟩
    · rw [List.append_nil]
      exact h.aside ha
    · rw [ha.handed, List.map_nil, List.append_nil]
  | @records other n session call hready hr =>
    by_cases ho : other = id
    · subst ho
      obtain ⟨found, hfound, hv⟩ := h.ready
      cases hready.symm.trans hfound
      rw [hv] at hr
      refine ⟨[call.notice (recorded notices)], h.records (call.follows_notice notices) hr, ?_⟩
      rw [hr.handed, if_pos rfl, List.map_singleton]
    · refine ⟨[], ?_, ?_⟩
      · rw [List.append_nil]
        refine h.records_of_ne (fun hn => ho ?_) hr
        exact h.alone other (hn ▸ (before.ready?_eq_some_iff.1 hready).1)
      · rw [hr.handed, if_neg ho, List.map_nil]

end Tracks

end Client

end LanguageSessions
