import LanguageSessions.Client.Inbound
import LanguageSessions.Client.Query
import LanguageSessions.Proofs.Client.Calm

/-!
# Messages are calm

Opening, changing and closing documents, asking queries, and taking in the messages of servers leave the attempts alone,
and each step of theirs that waits for a ticket waits for a fresh one.
-/

namespace LanguageSessions.Client

variable {σ : Type} {before : Client σ}

/-! ## Documents -/

section Documents

variable (client : Client σ) (setup : Setup σ)

theorem proceeds_openDocument (id path language text : String) :
    Proceeds NoticePhase.signal client (client.openDocument setup id path language text) := by
  unfold openDocument
  split
  · exact .ends (.refl client) _
  · refine (proceeds_notify _ setup _ _ _).after ?_
    exact client.calm_changeSession _ fun _ => ⟨rfl, rfl, Or.inl rfl⟩

theorem proceeds_changeDocument (id path text : String) :
    Proceeds NoticePhase.signal client (client.changeDocument setup id path text) := by
  unfold changeDocument
  split
  · exact .ends (.refl client) _
  · next number session _ =>
    refine (proceeds_notify _ setup _ _ _).after ?_
    have hc := client.calm_changeSession number (f := fun session => session.bumpVersion (Uri.ofPath path))
      fun _ => ⟨rfl, rfl, Or.inl rfl⟩
    split
    · exact hc
    · exact hc.trans (calm_log _ _)

theorem proceeds_afterDocumentClose (path : String) {step : Client σ × Progress NoticePhase Unit}
    (h : Proceeds NoticePhase.signal before step) :
    Proceeds NoticePhase.signal before (step.1.afterDocumentClose path step.2) := by
  obtain ⟨client, told⟩ := step
  dsimp only [afterDocumentClose]
  split
  · exact h
  · exact h
  · split
    · exact .ends (h.calm.trans (client.calm_log _)) _
    · exact h

theorem proceeds_closeDocument (id path : String) :
    Proceeds NoticePhase.signal client (client.closeDocument setup id path) := by
  unfold closeDocument
  split
  · exact .ends (.refl client) _
  · dsimp only
    refine proceeds_afterDocumentClose path ((proceeds_notify _ setup _ _ _).after ?_)
    exact client.calm_changeSession _ fun _ => ⟨rfl, rfl, Or.inl rfl⟩

theorem proceeds_resumeDocumentClose (cancelled : Bool) (path : String) (phase : NoticePhase) :
    Proceeds NoticePhase.signal client (client.resumeDocumentClose setup cancelled path phase) := by
  unfold resumeDocumentClose
  dsimp only
  exact proceeds_afterDocumentClose path (client.proceeds_resumeNotice setup cancelled phase)

end Documents

/-! ## Queries -/

section Queries

variable (client : Client σ) (setup : Setup σ)

theorem proceeds_afterQuery (query : Query) {step : Client σ × Progress RequestPhase Json}
    (h : Proceeds RequestPhase.signal before step) :
    Proceeds QueryPhase.signal before (step.1.afterQuery query step.2) := by
  obtain ⟨client, asked⟩ := step
  dsimp only [afterQuery]
  split
  · exact h.waits rfl
  · split
    · exact .ends h.calm _
    · exact .ends (h.calm.trans (client.calm_logAll _)) _

theorem proceeds_query (query : Query) (id method : String) (params : Members) :
    Proceeds QueryPhase.signal client (client.query setup query id method params) := by
  unfold Client.query
  dsimp only
  exact proceeds_afterQuery query (client.proceeds_requestIfPrintable setup _ _ _ _)

theorem proceeds_resumeQuery (cancelled : Bool) (phase : QueryPhase) :
    Proceeds QueryPhase.signal client (client.resumeQuery setup cancelled phase) := by
  unfold resumeQuery
  dsimp only
  exact proceeds_afterQuery phase.query (client.proceeds_resumeRequest setup cancelled _)

theorem proceeds_lookupDefinition (path : String) (position : Position) :
    Proceeds QueryPhase.signal client (client.lookupDefinition setup path position) := by
  unfold lookupDefinition
  split
  · exact .ends (.refl client) _
  · exact (proceeds_query _ setup _ _ _ _).after (client.calm_log _)

theorem proceeds_lookupReferences (path : String) (position : Position) :
    Proceeds QueryPhase.signal client (client.lookupReferences setup path position) := by
  unfold lookupReferences
  split
  · exact .ends (.refl client) _
  · exact (proceeds_query _ setup _ _ _ _).after (client.calm_log _)

end Queries

/-! ## Messages of servers -/

section Inbound

variable (client : Client σ)

theorem calm_tellObserver (observer : Observer) (first second : Json) :
    Calm client (client.tellObserver observer first second).1 := by
  unfold tellObserver
  dsimp only
  split
  · exact client.calm_note _
  · exact client.calm_note _
  · split <;> exact calm_of_eq rfl rfl rfl rfl rfl

theorem calm_tellStore (uri : String) (items : Json) : Calm client (client.tellStore uri items).1 := by
  unfold tellStore
  dsimp only
  split
  · exact (client.calm_logAll _).trans (calm_of_eq rfl rfl rfl rfl rfl)
  · exact client.calm_logAll _

theorem calm_tellListener (first second : Json) (listener : Listener) :
    Calm client (tellListener first second client listener).1 := by
  unfold tellListener
  split
  · split
    · exact client.calm_tellStore _ _
    · exact .refl client
  · split
    · exact client.calm_tellObserver _ _ _
    · exact .refl client

theorem calm_tell (topic : Topic) (first second : Json) : Calm client (client.tell topic first second) := by
  unfold tell
  generalize client.audience.of topic = listeners
  induction listeners generalizing client with
  | nil => exact .refl client
  | cons listener listeners ih =>
    have h := client.calm_tellListener first second listener
    unfold Subscribers.emit
    dsimp only
    split
    · exact (h.trans (calm_log _ _)).trans (ih _)
    · exact h.trans (ih _)

theorem calm_resolve (id : RequestId) (result : Json) : Calm client (client.resolve id result) :=
  (client.calm_setPending _).trans (calm_logAll _ _)

theorem calm_reject (id : RequestId) (fault : Fault) : Calm client (client.reject id fault) :=
  (client.calm_setPending _).trans (calm_logAll _ _)

theorem calm_refuse (id : RequestId) (error : Members) : Calm client (client.refuse id error) := by
  unfold refuse
  dsimp only
  split
  · exact (client.calm_log _).trans (calm_reject _ _ _)
  · exact client.calm_reject _ _

theorem calm_hearNotification (session method : String) (params : Json) :
    Calm client (client.hearNotification session method params) := by
  unfold hearNotification
  dsimp only
  split
  · exact client.calm_tell _ _ _
  · split
    · exact (client.calm_tell _ _ _).trans (calm_tell _ _ _ _)
    · exact (client.calm_tell _ _ _).trans (calm_log _ _)

/-- A message of a server is calm. -/
theorem calm_hear (delivery : Delivery) : Calm client (client.hear delivery) := by
  unfold hear hear?
  split
  · split
    · exact .refl client
    · exact client.calm_log _
    · exact client.calm_hearNotification _ _ _
    · exact client.calm_resolve _ _
    · exact client.calm_refuse _ _
  · exact .refl client

end Inbound

end LanguageSessions.Client
