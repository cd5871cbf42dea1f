import LanguageSessions.Client.Operation
import LanguageSessions.Proofs.Client.Messages
import LanguageSessions.Proofs.Client.Start
import LanguageSessions.Proofs.Client.Stop

/-!
# What a turn of an operation does

Every turn of every operation is calm, or it launches an attempt: an operation that begins (`advances_beginOperation`),
and one that goes on (`advances_resumeActivity`). Who comes to wait for an attempt has made a start
(`starts_beginOperation`), and goes on waiting as long as the attempt runs (`waits_resumeActivity`).
-/

namespace LanguageSessions

/-- The phase of an activity that waits for an attempt which it joined. -/
def Activity.join? : Activity → Option JoinPhase
  | .joining phase | .connecting _ phase | .arriving _ phase => some phase
  | _ => none

theorem Activity.signal_of_join? {activity : Activity} {phase : JoinPhase} (h : activity.join? = some phase) :
    activity.signal = phase.signal := by
  cases activity <;> cases h <;> rfl

namespace Client

variable {σ : Type} {old : Option Signal} {before : Client σ}

/-! ## Bindings -/

section Bindings

variable (client : Client σ) (setup : Setup σ)

theorem advances_afterConnect (number : Nat) (binding : Binding) (language : String)
    {step : Client σ × Progress JoinPhase String} (h : Advances JoinPhase.signal old before step) :
    Advances JoinPhase.signal old before (step.1.afterConnect number binding language step.2) := by
  obtain ⟨client, started⟩ := step
  dsimp only [afterConnect]
  split
  · exact h.waits rfl
  · refine (Proceeds.ends (h.calm.trans ?_) _).advances
    exact calm_of_eq rfl rfl rfl rfl rfl
  · split
    · refine (Proceeds.ends (h.calm.trans ?_) _).advances
      exact calm_of_eq rfl rfl rfl rfl rfl
    · exact (Proceeds.ends h.calm _).advances

theorem advances_connect (number : Nat) (binding : Binding) :
    Advances JoinPhase.signal none client (client.connect setup number binding) := by
  unfold connect
  split
  · exact (Proceeds.ends (.refl client) _).advances
  · next language _ =>
    split
    · exact (Proceeds.ends (.refl client) _).advances
    · dsimp only
      refine advances_afterConnect number binding language (.of_same ?_ (advances_start _ setup language binding.root))
      exact ⟨rfl, rfl, rfl, rfl, rfl⟩

theorem advances_resumeConnect (cancelled : Bool) (number : Nat) (binding : Binding) (phase : JoinPhase) :
    Advances JoinPhase.signal (some phase.signal) client (client.resumeConnect cancelled number binding phase) := by
  unfold resumeConnect
  dsimp only
  exact advances_afterConnect number binding _ (client.advances_resumeJoin cancelled phase)

theorem proceeds_afterBindingOpen (number : Nat) {step : Client σ × Progress NoticePhase Unit}
    (h : Proceeds NoticePhase.signal before step) :
    Proceeds NoticePhase.signal before (step.1.afterBindingOpen number step.2) := by
  obtain ⟨client, opened⟩ := step
  dsimp only [afterBindingOpen]
  split
  · exact .ends (h.calm.trans (client.calm_changeBinding _ _)) _
  · exact h

theorem proceeds_openBinding (number : Nat) (binding : Binding) (text : String) :
    Proceeds NoticePhase.signal client (client.openBinding setup number binding text) := by
  unfold openBinding
  split
  · dsimp only
    exact proceeds_afterBindingOpen number (client.proceeds_openDocument setup _ _ _ _)
  · exact .ends (.refl client) _

theorem proceeds_updateBinding (binding : Binding) (text : String) :
    Proceeds NoticePhase.signal client (client.updateBinding setup binding text) := by
  unfold updateBinding
  split
  · exact .ends (.refl client) _
  · exact client.proceeds_changeDocument setup _ _ _

theorem calm_leave (number : Nat) (binding : Binding) : Calm client (client.leave number binding) :=
  calm_of_eq rfl rfl rfl rfl rfl

theorem proceeds_afterBindingClose (number : Nat) (binding : Binding) (leaving : Bool)
    {step : Client σ × Progress NoticePhase Unit} (h : Proceeds NoticePhase.signal before step) :
    Proceeds NoticePhase.signal before (step.1.afterBindingClose number binding leaving step.2) := by
  obtain ⟨client, closed⟩ := step
  dsimp only [afterBindingClose]
  split
  · have hc := h.calm.trans (client.calm_changeBinding number fun binding => { binding with isOpen := false })
    split
    · exact .ends (hc.trans (calm_leave _ number binding)) _
    · exact .ends hc _
  · exact h

theorem proceeds_closeBinding (number : Nat) (binding : Binding) (leaving : Bool) :
    Proceeds NoticePhase.signal client (client.closeBinding setup number binding leaving) := by
  unfold closeBinding
  split
  · split
    · exact .ends (client.calm_leave number binding) _
    · exact .ends (.refl client) _
  · dsimp only
    exact proceeds_afterBindingClose number binding leaving (client.proceeds_closeDocument setup _ _)

theorem proceeds_resumeBindingClose (cancelled : Bool) (number : Nat) (binding : Binding) (leaving : Bool)
    (phase : NoticePhase) :
    Proceeds NoticePhase.signal client (client.resumeBindingClose setup cancelled number binding leaving phase) := by
  unfold resumeBindingClose
  dsimp only
  exact proceeds_afterBindingClose number binding leaving (client.proceeds_resumeDocumentClose setup cancelled _ phase)

theorem proceeds_bindingHover (binding : Binding) (position : Position) :
    Proceeds QueryPhase.signal client (client.bindingHover setup binding position) := by
  unfold bindingHover
  split
  · exact client.proceeds_query setup _ _ _ _
  · exact .ends (.refl client) _

theorem proceeds_bindingDefinition (binding : Binding) (position : Position) :
    Proceeds QueryPhase.signal client (client.bindingDefinition setup binding position) := by
  unfold bindingDefinition
  split
  · exact client.proceeds_query setup _ _ _ _
  · exact client.proceeds_lookupDefinition setup _ _

theorem proceeds_bindingReferences (binding : Binding) (position : Position) :
    Proceeds QueryPhase.signal client (client.bindingReferences setup binding position) := by
  unfold bindingReferences
  split
  · exact client.proceeds_query setup _ _ _ _
  · exact client.proceeds_lookupReferences setup _ _

end Bindings

/-! ## Visits -/

section Visits

variable {setup : Setup σ}

theorem proceeds_afterDeparture (scope : Scope) (started : Except Fault String)
    {step : Client σ × Progress ClosePhase Unit} (h : Proceeds ClosePhase.signal before step) :
    Proceeds Activity.signal before (step.1.afterDeparture scope started step.2) := by
  obtain ⟨client, closed⟩ := step
  dsimp only [afterDeparture]
  split
  · exact h.waits rfl
  all_goals exact .ends h.calm _

theorem advances_afterArrival (scope : Scope) {step : Client σ × Progress JoinPhase String}
    (h : Advances JoinPhase.signal old before step) :
    Advances Activity.signal old before (step.1.afterArrival setup scope step.2) := by
  obtain ⟨client, started⟩ := step
  dsimp only [afterArrival]
  split
  · exact h.waits rfl
  · exact (proceeds_afterDeparture scope _ ((client.proceeds_close setup scope).after h.calm)).advances

theorem same_openScope (client : Client σ) (scope : Scope) : Same client (client.openScope scope) := by
  cases scope with
  | sessions => exact client.same_listen
  | everything =>
    refine client.same_listen.trans ?_
    unfold openScope
    dsimp only
    split <;> exact ⟨rfl, rfl, rfl, rfl, rfl⟩

theorem advances_visit (client : Client σ) (scope : Scope) (language root : String) :
    Advances Activity.signal none client (client.visit setup scope language root) := by
  unfold visit
  dsimp only
  exact advances_afterArrival scope (.of_same (client.same_openScope scope) (advances_start _ setup language root))

end Visits

/-! ## Servers -/

section Servers

variable (client : Client σ) (setup : Setup σ)

theorem proceeds_afterServerInspection (language : String) {step : Client σ × Progress Nat Availability}
    (h : Proceeds Signal.ticket before step) :
    Proceeds Activity.signal before (step.1.afterServerInspection language step.2) := by
  obtain ⟨client, known⟩ := step
  dsimp only [afterServerInspection]
  split
  · exact h.waits rfl
  · exact .ends h.calm _

theorem proceeds_afterDownload (language : String) {step : Client σ × Progress Nat String}
    (h : Proceeds Signal.ticket before step) :
    Proceeds Activity.signal before (step.1.afterDownload language step.2) := by
  obtain ⟨client, got⟩ := step
  dsimp only [afterDownload]
  split
  · exact h.waits rfl
  · exact .ends h.calm _
  · refine .ends (h.calm.trans ?_) _
    exact calm_of_eq rfl rfl rfl rfl rfl

end Servers

/-! ## Operations and activities -/

section Operations

variable (client : Client σ) (setup : Setup σ)

theorem Proceeds.silently {φ : Type} {signal : φ → Signal} {activity : φ → Activity}
    {step : Client σ × Progress φ Unit} (h : Proceeds signal before step)
    (hs : ∀ phase, (activity phase).signal = signal phase) :
    Advances Activity.signal old before (silently activity step) :=
  ((h.inPhase hs).map _).advances

theorem Advances.withSession {activity : JoinPhase → Activity} {step : Client σ × Progress JoinPhase String}
    (h : Advances JoinPhase.signal old before step) (hs : ∀ phase, (activity phase).signal = phase.signal) :
    Advances Activity.signal old before (withSession activity step) :=
  (h.inPhase hs).map _

theorem Advances.connected {binding : Nat} {step : Client σ × Progress JoinPhase (Option String)}
    (h : Advances JoinPhase.signal old before step) : Advances Activity.signal old before (connected binding step) := by
  have hp : Advances Activity.signal old before (step.1, step.2.inPhase (.connecting binding)) :=
    h.inPhase fun _ => rfl
  exact hp.map _

theorem Proceeds.withValue {step : Client σ × Progress RequestPhase Json}
    (h : Proceeds RequestPhase.signal before step) :
    Advances Activity.signal old before (withValue step) := by
  have hp : Proceeds Activity.signal before (step.1, step.2.inPhase .requesting) := h.inPhase fun _ => rfl
  exact (hp.map _).advances

theorem Proceeds.queried {step : Client σ × Progress QueryPhase Answer} (h : Proceeds QueryPhase.signal before step) :
    Advances Activity.signal old before (queried step) := by
  have hp : Proceeds Activity.signal before (step.1, step.2.inPhase .querying) := h.inPhase fun _ => rfl
  exact hp.advances

theorem advances_withBinding (number : Nat) {f : Binding → Client σ × Progress Activity Answer}
    (hf : ∀ binding, Advances Activity.signal old client (f binding)) :
    Advances Activity.signal old client (client.withBinding number f) := by
  unfold withBinding
  split
  · exact hf _
  · exact (Proceeds.ends (.refl client) _).advances

/-- **An operation that begins is calm, or launches an attempt.** -/
theorem advances_beginOperation (operation : Operation) :
    Advances Activity.signal none client (client.beginOperation setup operation) := by
  cases operation with
  | enter scope => exact (Proceeds.ends (client.same_openScope scope).calm _).advances
  | close scope => exact (client.proceeds_close setup scope).silently fun _ => rfl
  | visit scope language root => exact client.advances_visit scope language root
  | start language root => exact (client.advances_start setup language root).withSession fun _ => rfl
  | stop session => exact (client.proceeds_stop setup session).silently fun _ => rfl
  | stopAll => exact (client.proceeds_stopEach setup _).silently fun _ => rfl
  | openDocument session path language text =>
    exact (client.proceeds_openDocument setup session path language text).silently fun _ => rfl
  | changeDocument session path text =>
    exact (client.proceeds_changeDocument setup session path text).silently fun _ => rfl
  | closeDocument session path => exact (client.proceeds_closeDocument setup session path).silently fun _ => rfl
  | request session method params delay => exact (client.proceeds_requestIfPrintable setup session method params delay).withValue
  | notify session method params => exact (client.proceeds_notifyIfPrintable setup session method params).silently fun _ => rfl
  | hover session path position => exact (client.proceeds_query setup _ _ _ _).queried
  | definition session path position => exact (client.proceeds_query setup _ _ _ _).queried
  | references session path position withDeclaration => exact (client.proceeds_query setup _ _ _ _).queried
  | symbols session path => exact (client.proceeds_query setup _ _ _ _).queried
  | inspect language => exact (proceeds_afterServerInspection language (client.proceeds_ask setup _)).advances
  | download language =>
    exact (proceeds_afterDownload language ((proceeds_ask _ setup _).after (client.calm_log _))).advances
  | lookupDefinition path position => exact (client.proceeds_lookupDefinition setup path position).queried
  | lookupReferences path position => exact (client.proceeds_lookupReferences setup path position).queried
  | connect number =>
    exact client.advances_withBinding number fun binding => (client.advances_connect setup number binding).connected
  | disconnect number =>
    exact client.advances_withBinding number fun binding =>
      (client.proceeds_closeBinding setup number binding true).silently fun _ => rfl
  | openBinding number text =>
    exact client.advances_withBinding number fun binding =>
      (client.proceeds_openBinding setup number binding text).silently fun _ => rfl
  | updateBinding number text =>
    exact client.advances_withBinding number fun binding =>
      (client.proceeds_updateBinding setup binding text).silently fun _ => rfl
  | closeBinding number =>
    exact client.advances_withBinding number fun binding =>
      (client.proceeds_closeBinding setup number binding false).silently fun _ => rfl
  | bindingHover number position =>
    exact client.advances_withBinding number fun binding =>
      (client.proceeds_bindingHover setup binding position).queried
  | bindingDefinition number position =>
    exact client.advances_withBinding number fun binding =>
      (client.proceeds_bindingDefinition setup binding position).queried
  | bindingReferences number position =>
    exact client.advances_withBinding number fun binding =>
      (client.proceeds_bindingReferences setup binding position).queried

theorem proceeds_resumeUse (cancelled : Bool) (phase : NoticePhase) (use : NoticeUse) :
    Proceeds NoticePhase.signal client (client.resumeUse setup cancelled phase use) := by
  cases use with
  | plain => exact client.proceeds_resumeNotice setup cancelled phase
  | closing path => exact client.proceeds_resumeDocumentClose setup cancelled path phase
  | openingBinding number => exact proceeds_afterBindingOpen number (client.proceeds_resumeNotice setup cancelled phase)
  | closingBinding number leaving =>
    unfold resumeUse
    dsimp only
    split
    · exact client.proceeds_resumeBindingClose setup cancelled number _ leaving phase
    · exact .ends (.refl client) _

/-- **An activity that goes on is calm, or launches an attempt.** -/
theorem advances_resumeActivity (cancelled : Bool) (activity : Activity) :
    Advances Activity.signal (some activity.signal) client (client.resumeActivity setup cancelled activity) := by
  cases activity with
  | joining phase => exact (client.advances_resumeJoin cancelled phase).withSession fun _ => rfl
  | connecting number phase =>
    exact client.advances_withBinding number fun binding =>
      (client.advances_resumeConnect cancelled number binding phase).connected
  | stopping phase => exact (client.proceeds_resumeStop setup cancelled phase).silently fun _ => rfl
  | stoppingAll phase => exact (client.proceeds_resumeStopAll setup cancelled phase).silently fun _ => rfl
  | closing scope phase => exact (client.proceeds_resumeClose setup cancelled scope phase).silently fun _ => rfl
  | arriving scope phase => exact advances_afterArrival scope (client.advances_resumeJoin cancelled phase)
  | departing scope started phase =>
    exact (proceeds_afterDeparture scope started (client.proceeds_resumeClose setup cancelled scope phase)).advances
  | noticing use phase => exact (client.proceeds_resumeUse setup cancelled phase use).silently fun _ => rfl
  | requesting phase => exact (client.proceeds_resumeRequest setup cancelled phase).withValue
  | querying phase => exact (client.proceeds_resumeQuery setup cancelled phase).queried
  | inspecting ticket language =>
    exact (proceeds_afterServerInspection language (client.proceeds_goOn setup cancelled _)).advances
  | downloading ticket language =>
    exact (proceeds_afterDownload language (client.proceeds_goOn setup cancelled _)).advances

end Operations

/-! ## Who waits for an attempt -/

section Joining

variable {client : Client σ} {setup : Setup σ}

/-- An operation that has got so far does not wait for an attempt. -/
def Unjoined (step : Client σ × Progress Activity Answer) : Prop :=
  ∀ activity, step.2 = .waits activity → activity.join? = none

theorem unjoined_map {φ α : Type} {activity : φ → Activity} (ha : ∀ phase, (activity phase).join? = none)
    (g : α → Answer) (client : Client σ) (progress : Progress φ α) :
    Unjoined (client, (progress.inPhase activity).map g) := by
  intro waiting h
  cases progress with
  | waits phase =>
    injection h with h
    exact h ▸ ha phase
  | ends outcome => cases h

theorem unjoined_queried (step : Client σ × Progress QueryPhase Answer) : Unjoined (queried step) := by
  intro waiting h
  obtain ⟨client, phase | outcome⟩ := step <;> cases h
  rfl

theorem unjoined_withBinding (number : Nat) {f : Binding → Client σ × Progress Activity Answer}
    (hf : ∀ binding, Unjoined (f binding)) : Unjoined (client.withBinding number f) := by
  intro waiting h
  unfold withBinding at h
  split at h
  · exact hf _ waiting h
  · cases h

theorem unjoined_afterDeparture (client : Client σ) (scope : Scope) (started : Except Fault String)
    (closed : Progress ClosePhase Unit) : Unjoined (client.afterDeparture scope started closed) := by
  intro waiting h
  unfold afterDeparture at h
  split at h <;> cases h
  rfl

theorem unjoined_afterServerInspection (client : Client σ) (language : String) (known : Progress Nat Availability) :
    Unjoined (client.afterServerInspection language known) := by
  intro waiting h
  cases known <;> cases h
  rfl

theorem unjoined_afterDownload (client : Client σ) (language : String) (got : Progress Nat String) :
    Unjoined (client.afterDownload language got) := by
  intro waiting h
  unfold afterDownload at h
  split at h <;> cases h
  rfl

variable {activity : Activity} {phase : JoinPhase}

/-- A start that waits as an operation waits for the same. -/
theorem waits_of_withSession {make : JoinPhase → Activity} (hm : ∀ phase, (make phase).join? = some phase)
    {step : Client σ × Progress JoinPhase String} (h : (withSession make step).2 = .waits activity)
    (hj : activity.join? = some phase) : step.2 = .waits phase := by
  obtain ⟨client, waiting | outcome⟩ := step
  · cases h
    cases (hm waiting).symm.trans hj
    rfl
  · cases h

theorem waits_of_afterConnect {number : Nat} {binding : Binding} {language : String}
    {step : Client σ × Progress JoinPhase String}
    (h : (connected number (step.1.afterConnect number binding language step.2)).2 = .waits activity)
    (hj : activity.join? = some phase) :
    step.2 = .waits phase ∧ (step.1.afterConnect number binding language step.2).1 = step.1 := by
  obtain ⟨client, waiting | started⟩ := step
  · cases h
    cases hj
    exact ⟨rfl, rfl⟩
  · unfold connected afterConnect at h
    dsimp only at h
    split at h
    · next heq => cases heq
    · cases h
    · split at h <;> cases h

theorem waits_of_afterArrival {scope : Scope} {step : Client σ × Progress JoinPhase String}
    (h : (step.1.afterArrival setup scope step.2).2 = .waits activity) (hj : activity.join? = some phase) :
    step.2 = .waits phase ∧ (step.1.afterArrival setup scope step.2).1 = step.1 := by
  obtain ⟨client, waiting | started⟩ := step
  · cases h
    cases hj
    exact ⟨rfl, rfl⟩
  · exact nomatch hj.symm.trans (unjoined_afterDeparture _ scope started _ activity h)

theorem starts_connect {number : Nat} {binding : Binding}
    (h : (connected number (client.connect setup number binding)).2 = .waits activity) (hj : activity.join? = some phase) :
    ∃ first language root, Calm client first ∧
      (connected number (client.connect setup number binding)).1 = (first.start setup language root).1 ∧
      (first.start setup language root).2 = .waits phase := by
  unfold connect at h ⊢
  split at h
  · cases h
  · next language _ =>
    split at h
    · cases h
    · obtain ⟨hwaits, hclient⟩ := waits_of_afterConnect h hj
      rw [if_neg ‹_›]
      exact ⟨_, language, binding.root, client.calm_changeBinding number _, hclient, hwaits⟩

/-- **An operation that waits for an attempt waits as a start does that it has made.** -/
theorem starts_beginOperation {operation : Operation} (h : (client.beginOperation setup operation).2 = .waits activity)
    (hj : activity.join? = some phase) :
    ∃ first language root, Calm client first ∧
      (client.beginOperation setup operation).1 = (first.start setup language root).1 ∧
      (first.start setup language root).2 = .waits phase := by
  have hnot : ∀ {step : Client σ × Progress Activity Answer}, Unjoined step → step.2 ≠ .waits activity :=
    fun hu heq => nomatch hj.symm.trans (hu activity heq)
  cases operation with
  | enter scope => cases h
  | visit scope language root =>
    obtain ⟨hwaits, hclient⟩ := waits_of_afterArrival h hj
    exact ⟨_, language, root, (client.same_openScope scope).calm, hclient, hwaits⟩
  | start language root =>
    exact ⟨client, language, root, .refl client, rfl, waits_of_withSession (fun _ => rfl) h hj⟩
  | connect number =>
    dsimp only [beginOperation] at h ⊢
    unfold withBinding at h ⊢
    split at h
    · exact starts_connect h hj
    · cases h
  | close _ | stop _ | stopAll | openDocument _ _ _ _ | changeDocument _ _ _ | closeDocument _ _ | request _ _ _ _
  | notify _ _ _ => exact absurd h (hnot (unjoined_map (fun _ => rfl) _ _ _))
  | hover _ _ _ | definition _ _ _ | references _ _ _ _ | symbols _ _ | lookupDefinition _ _ | lookupReferences _ _ =>
    exact absurd h (hnot (unjoined_queried _))
  | inspect language => exact absurd h (hnot (unjoined_afterServerInspection _ language _))
  | download language => exact absurd h (hnot (unjoined_afterDownload _ language _))
  | disconnect number | openBinding number _ | updateBinding number _ | closeBinding number =>
    exact absurd h (hnot (unjoined_withBinding number fun _ => unjoined_map (fun _ => rfl) _ _ _))
  | bindingHover number _ | bindingDefinition number _ | bindingReferences number _ =>
    exact absurd h (hnot (unjoined_withBinding number fun _ => unjoined_queried _))

/-- A call goes on waiting for the attempt that it has joined, which has not ended. -/
theorem waits_resumeJoin {cancelled : Bool} {waited : JoinPhase}
    (h : (client.resumeJoin cancelled waited).2 = .waits phase) :
    waited = phase ∧ client.attempts[phase.attempt]?.bind (·.outcome) = none := by
  unfold resumeJoin at h
  split at h
  · cases h
  · split at h
    · cases h
    · cases h
      exact ⟨rfl, ‹_›⟩

/-- **Only an activity that waited for an attempt goes on waiting for one**, which has not ended. -/
theorem waits_resumeActivity {before : Activity} {cancelled : Bool}
    (h : (client.resumeActivity setup cancelled before).2 = .waits activity) (hj : activity.join? = some phase) :
    before.join? = some phase ∧ client.attempts[phase.attempt]?.bind (·.outcome) = none := by
  have hnot : ∀ {step : Client σ × Progress Activity Answer}, Unjoined step → step.2 ≠ .waits activity :=
    fun hu heq => nomatch hj.symm.trans (hu activity heq)
  cases before with
  | joining waited =>
    obtain ⟨rfl, unended⟩ := waits_resumeJoin (waits_of_withSession (fun _ => rfl) h hj)
    exact ⟨rfl, unended⟩
  | connecting number waited =>
    dsimp only [resumeActivity] at h
    unfold withBinding at h
    split at h
    · obtain ⟨rfl, unended⟩ := waits_resumeJoin (waits_of_afterConnect h hj).1
      exact ⟨rfl, unended⟩
    · cases h
  | arriving scope waited =>
    obtain ⟨rfl, unended⟩ := waits_resumeJoin (waits_of_afterArrival h hj).1
    exact ⟨rfl, unended⟩
  | departing scope started phase => exact absurd h (hnot (unjoined_afterDeparture _ scope started _))
  | stopping _ | stoppingAll _ | closing _ _ | noticing _ _ | requesting _ =>
    exact absurd h (hnot (unjoined_map (fun _ => rfl) _ _ _))
  | querying phase => exact absurd h (hnot (unjoined_queried _))
  | inspecting ticket language => exact absurd h (hnot (unjoined_afterServerInspection _ language _))
  | downloading ticket language => exact absurd h (hnot (unjoined_afterDownload _ language _))

end Joining

end Client

end LanguageSessions
