import LanguageSessions.Proofs.Client.Documents
import LanguageSessions.Proofs.Engine.Tickets

/-!
# Versions of documents

While documents are opened, changed and closed by any number of tasks, in any interleaving and whatever becomes of the
messages, the engine is steady (`Steady`): no session is started or ended, and all tasks that wait only wait for an
answer. Each event is then a step about at most one document (`Steady.after`), and so the versions of a ready session
follow the notices that are handed over for it (`versions_follow_the_notices`).
-/

namespace LanguageSessions

open Client DocumentNotice

namespace Engine

variable {σ : Type} {engine : Engine σ} {setup : Setup σ}

/-! ## Steady engines -/

/-- A task that is still to begin is a call about a document, and one that waits only waits for an answer. -/
inductive SteadyTask : TaskState → Prop where
  | ready (session : String) (call : DocumentCall) : SteadyTask (.ready (call.operation session))
  | waiting {activity : Activity} (waits : activity.onlyWaits = true) : SteadyTask (.waiting activity)
  | finished (outcome : Except Fault Answer) : SteadyTask (.finished outcome)

/-- All tasks are steady, and no session is being started. -/
structure Steady (engine : Engine σ) : Prop where
  tasks : ∀ task ∈ engine.tasks, SteadyTask task.state
  attempts : engine.attempts = []
  launches : ∀ attempt, .launch attempt ∉ engine.client.queue

/-- If an operation is called, it is a call about a document. -/
def Event.IsAboutDocuments : Event σ → Prop
  | .call operation => ∃ session call, operation = DocumentCall.operation session call
  | _ => True

/-- An event is a step about at most one document, and the engine stays steady. -/
structure Keeps (before after : Engine σ) : Prop where
  step : DocumentStep before.client after.client
  steady : after.Steady

theorem Steady.keeps (h : engine.Steady) {later : Engine σ} (hs : DocumentStep engine.client later.client)
    (ht : ∀ task ∈ later.tasks, SteadyTask task.state) (ha : later.attempts = engine.attempts) : Keeps engine later :=
  ⟨hs, ht, ha.trans h.attempts, fun attempt hl => h.launches attempt (hs.launches hl)⟩

/-- Nothing happens to the tasks. -/
theorem Steady.keeps_aside (h : engine.Steady) {client : Client σ} (ha : Aside engine.client client) :
    Keeps engine { engine with client } := h.keeps (.aside ha) h.tasks rfl

/-- A task gets on. -/
theorem Steady.afterTask (h : engine.Steady) (number : Nat) {step : Client σ × Progress Activity Answer}
    (hs : DocumentStep engine.client step.1) (hw : ∀ activity, step.2 = .waits activity → activity.onlyWaits = true) :
    Keeps engine (engine.afterTask number step) := by
  have htasks : ∀ state, SteadyTask state →
      ∀ task ∈ engine.tasks.set number ⟨state, false⟩, SteadyTask task.state := by
    intro state hstate task hm
    rcases List.mem_or_eq_of_mem_set hm with hm | rfl
    · exact h.tasks task hm
    · exact hstate
  obtain ⟨client, activity | outcome⟩ := step
  · exact h.keeps hs (htasks _ (.waiting (hw activity rfl))) rfl
  · exact h.keeps (hs.trans_aside (aside_note _ fun _ => rfl)) (htasks _ (.finished outcome)) rfl

/-! ## Turns -/

theorem Steady.beginTask (h : engine.Steady) (setup : Setup σ) (number : Nat) :
    Keeps engine (engine.beginTask setup number) := by
  unfold Engine.beginTask
  split
  · next operation cancelled ht =>
    cases h.tasks _ (List.mem_of_getElem? ht) with
    | ready session call =>
      cases cancelled with
      | true =>
        rw [if_pos rfl]
        exact h.afterTask number (.aside (.refl _)) fun _ hw => nomatch hw
      | false =>
        rw [if_neg Bool.false_ne_true]
        exact h.afterTask number (engine.client.documentStep_beginOperation setup session call)
          fun _ => onlyWaits_beginOperation
  · exact h.keeps_aside (.refl _)

theorem Steady.resumeTask (h : engine.Steady) (setup : Setup σ) (number : Nat) :
    Keeps engine (engine.resumeTask setup number) := by
  unfold Engine.resumeTask
  split
  · next activity cancelled ht =>
    cases h.tasks _ (List.mem_of_getElem? ht) with
    | waiting waits =>
      have ha := engine.client.aside_resumeActivity setup cancelled waits
      exact h.afterTask number (.aside ha.aside) ha.onlyWaits
  · exact h.keeps_aside (.refl _)

theorem aside_countGathered (client : Client σ) (ticket : Nat) : Aside client (countGathered client ticket) := by
  unfold countGathered
  split
  · exact .refl client
  · exact aside_of_eq rfl rfl rfl
  · have ha : Aside client { client with gathers := client.gathers.erase ticket } := aside_of_eq rfl rfl rfl
    exact ha.trans (aside_push _ rfl)

theorem aside_forget (client : Client σ) (number : Nat) : Aside client (forget client number) := by
  unfold forget
  split
  · exact .refl client
  · dsimp only
    split
    · exact aside_of_eq rfl rfl rfl
    · exact .refl client

theorem Steady.perform (h : engine.Steady) (setup : Setup σ) {turn : Turn} (hl : ∀ attempt, turn ≠ .launch attempt) :
    Keeps engine (engine.perform setup turn) := by
  cases turn with
  | begin task => exact h.beginTask setup task
  | launch attempt => exact absurd rfl (hl attempt)
  | wake signal =>
    dsimp only [Engine.perform, wake]
    split
    · exact h.resumeTask setup _
    · rw [h.attempts]
      exact h.keeps_aside (.refl _)
  | release => exact h.keeps_aside (aside_setPending _ _)
  | forget attempt => exact h.keeps_aside (aside_forget _ attempt)
  | joined ticket => exact h.keeps_aside (aside_push _ rfl)
  | gathered ticket => exact h.keeps_aside (aside_countGathered _ ticket)
  | deliver delivery => exact h.keeps_aside (aside_hear _ delivery)

/-- A turn is taken from the front of the queue. -/
theorem Steady.pop (h : engine.Steady) {turn : Turn} {queue : List Turn} (hq : engine.client.queue = turn :: queue) :
    Aside engine.client (engine.withQueue queue).client ∧ (engine.withQueue queue).Steady := by
  have ha : Aside engine.client (engine.withQueue queue).client :=
    ⟨rfl, fun _ => rfl, fun _ hm => hq ▸ List.mem_cons_of_mem _ hm⟩
  exact ⟨ha, (h.keeps_aside ha).steady⟩

theorem Steady.next (h : engine.Steady) (setup : Setup σ) : Keeps engine (engine.next setup) := by
  rcases next_cases engine setup with heq | ⟨turn, queue, hq, heq⟩
  · rw [heq]
    exact h.keeps_aside (.refl _)
  · rw [heq]
    obtain ⟨ha, hs⟩ := h.pop hq
    have hl : ∀ attempt, turn ≠ .launch attempt := by
      rintro attempt rfl
      apply h.launches attempt
      rw [hq]
      exact List.mem_cons_self
    have hk := hs.perform setup hl
    exact ⟨ha.trans_step hk.step, hk.steady⟩

/-! ## All events -/

theorem aside_interrupt (client : Client σ) (signal : Signal) : Aside client (interrupt client signal) := by
  unfold interrupt
  split
  · split
    split
    · exact (client.aside_push rfl).trans (aside_setPending _ _)
    · exact .refl client
  · exact client.aside_push rfl

/-- A task is cancelled that does not wait for several starts. -/
theorem Steady.cancel (h : engine.Steady) {number : Nat} (ha : engine.Allows (.cancel number)) :
    Keeps engine (engine.cancel number).1 := by
  have htasks : ∀ task ∈ (engine.cancel number).1.tasks, SteadyTask task.state := by
    rcases tasks_cancel ha with heq | ⟨task, ht, heq⟩
    · rw [heq]
      exact h.tasks
    · rw [heq]
      intro other hm
      rcases List.mem_or_eq_of_mem_set hm with hm | rfl
      · exact h.tasks other hm
      · exact h.tasks task (List.mem_of_getElem? ht)
  refine h.keeps (.aside ?_) htasks (calm_cancel ha).2
  unfold Engine.cancel
  split
  · exact .refl _
  · next task ht =>
    dsimp only
    split
    · exact .refl _
    · exact .refl _
    · next activity hs =>
      rw [ha task activity ht hs]
      exact aside_interrupt _ _

/-- **While documents are asked about, each event is a step about at most one document.** -/
theorem Steady.after (h : engine.Steady) {event : Event σ} (ha : engine.Allows event) (he : event.IsAboutDocuments) :
    Keeps engine (engine.after setup event) := by
  cases event with
  | call operation =>
    obtain ⟨session, call, rfl⟩ := he
    refine h.keeps (.aside (engine.client.aside_push rfl)) (fun task hm => ?_) rfl
    rcases List.mem_append.1 hm with hm | hm
    · exact h.tasks task hm
    · rw [List.mem_singleton.1 hm]
      exact .ready session call
  | turn => exact h.next setup
  | expire timer => exact h.keeps_aside ((aside_setPending _ _).trans (aside_logAll _ _))
  | moveClock time => exact h.keeps_aside (aside_of_eq rfl rfl rfl)
  | cancel number => exact h.cancel ha
  | layer state tickets deliveries =>
    have hl : Aside engine.client { engine.client with layer := state } := aside_of_eq rfl rfl rfl
    refine h.keeps_aside (hl.trans (aside_pushAll _ fun turn ht => ?_))
    rcases List.mem_append.1 ht with ht | ht
    · obtain ⟨ticket, -, rfl⟩ := List.mem_map.1 ht
      rfl
    · obtain ⟨delivery, -, rfl⟩ := List.mem_map.1 ht
      rfl
  | hear delivery => exact h.keeps_aside (aside_hear _ delivery)
  | listen audience => exact h.keeps_aside (aside_of_eq rfl rfl rfl)
  | bind bindings => exact h.keeps_aside (aside_of_eq rfl rfl rfl)
  | reorder queue => exact h.keeps_aside ⟨rfl, fun _ => rfl, fun _ hm => List.Perm.mem_iff ha |>.1 hm⟩

/-! ## Runs -/

/-- **The versions of a session follow its notices** through any run in which only documents are asked about. -/
theorem Run.tracks {first final : Engine σ} {events : List (Event σ)} (run : Run setup first events final)
    (h : first.Steady) (he : ∀ event ∈ events, event.IsAboutDocuments) {id : String} {number : Nat}
    {notices : List DocumentNotice} (ht : Tracks id number notices first.client) :
    final.Steady ∧ ∃ more, Tracks id number (notices ++ more) final.client ∧
      final.client.handed id = first.client.handed id ++ more.map print := by
  induction run generalizing notices with
  | nil engine => exact ⟨h, [], by rw [List.append_nil]; exact ht, (List.append_nil _).symm⟩
  | cons allowed run ih =>
    rw [List.forall_mem_cons] at he
    obtain ⟨hstep, hsteady⟩ := h.after allowed he.1
    obtain ⟨notices', ht', hh'⟩ := ht.step hstep
    obtain ⟨hfinal, more, ht'', hh''⟩ := ih hsteady he.2 ht'
    refine ⟨hfinal, notices' ++ more, by rw [← List.append_assoc]; exact ht'', ?_⟩
    rw [hh'', hh', List.map_append, List.append_assoc]

/-- The turn in which a call about a document of a ready session begins hands over its notice. -/
theorem handed_next {id : String} {number : Nat} {notices : List DocumentNotice}
    (ht : Tracks id number notices engine.client) {task : Nat} {queue : List Turn}
    (hq : engine.client.queue = .begin task :: queue) {call : DocumentCall}
    (hc : engine.tasks[task]? = some ⟨.ready (call.operation id), false⟩) :
    (engine.next setup).client.handed id =
      engine.client.handed id ++ [(call.notice (recorded notices)).print] := by
  obtain ⟨session, hready, hv⟩ := ht.ready
  have hr := (engine.withQueue queue).client.records_beginOperation setup hready call
  have hnote : ∀ step : Client σ × Progress Activity Answer,
      ((engine.withQueue queue).afterTask task step).client.handed id = step.1.handed id := by
    rintro ⟨client, activity | outcome⟩
    · rfl
    · exact (client.aside_note fun _ => rfl).handed id
  have hnext : engine.next setup = (engine.withQueue queue).beginTask setup task := next_of_turn hq setup
  rw [hnext, beginTask_of_ready (engine.withQueue queue) setup hc, hnote, hr.handed, if_pos rfl, hv]
  rfl

/-- A session is ready, and its versions are those that the notices handed over for it leave behind. Nothing is under way
but calls about documents, and calls that wait for an answer. -/
structure Serves (engine : Engine σ) (id : String) (notices : List DocumentNotice) : Prop where
  steady : engine.Steady
  named : engine.client.sessions.Named
  inOrder : InOrder notices
  session : ∃ session, engine.client.sessions.get? id = some session ∧ session.isReady = true ∧
    ∀ uri, session.versions.get? uri = recorded notices uri

/-- A session that has just become ready was told nothing about documents. -/
theorem serves_nil (h : engine.Steady) (hn : engine.client.sessions.Named) {id : String} {session : Session}
    (hs : engine.client.sessions.get? id = some session) (hr : session.isReady = true) (hv : session.versions = []) :
    engine.Serves id [] := ⟨h, hn, inOrder_nil, session, hs, hr, fun uri => by rw [hv]; rfl⟩

theorem Serves.tracks {id : String} {notices : List DocumentNotice} (h : engine.Serves id notices) :
    ∃ number, Tracks id number notices engine.client := by
  obtain ⟨session, hs, hr, hv⟩ := h.session
  obtain ⟨number, hn, hs⟩ := Option.bind_eq_some_iff.1 hs
  refine ⟨number, hn, fun other ho => ?_, ⟨session, hs, hr, hv⟩, h.inOrder⟩
  obtain ⟨found, hfound, rfl⟩ := h.named other number (Entries.mem_of_get? ho)
  obtain ⟨found', hfound', rfl⟩ := h.named id number (Entries.mem_of_get? hn)
  cases hfound.symm.trans hfound'
  rfl

/-- **The versions of documents are those that were handed over.** Any number of tasks open, change and close documents
of any sessions, in any interleaving; messages may wait, fail or be given up. What is handed over for a ready session
meanwhile is a list of notices. Together with the earlier ones, of which there are none if the session has just become
ready, every one of them that opens a document carries version one, and every one that changes a document carries the
version after the one that the last notice about this document carried. The session stays ready, and has for every
document the version recorded that the last notice about it carried. Each call that begins hands over its notice. -/
theorem versions_follow_the_notices {first final : Engine σ} {events : List (Event σ)} {id : String}
    {earlier : List DocumentNotice} (hfirst : first.Serves id earlier) (run : Run setup first events final)
    (he : ∀ event ∈ events, event.IsAboutDocuments) :
    ∃ notices : List DocumentNotice,
      final.client.handed id = first.client.handed id ++ notices.map print ∧ InOrder (earlier ++ notices) ∧
      (∃ session, final.client.sessions.get? id = some session ∧ session.isReady = true ∧
        ∀ uri, session.versions.get? uri = recorded (earlier ++ notices) uri) ∧
      ∀ task call queue, final.client.queue = .begin task :: queue →
        final.tasks[task]? = some ⟨.ready (DocumentCall.operation id call), false⟩ →
        (final.next setup).client.handed id =
          final.client.handed id ++ [(call.notice (recorded (earlier ++ notices))).print] := by
  obtain ⟨number, ht⟩ := hfirst.tracks
  obtain ⟨-, notices, ht, hh⟩ := run.tracks hfirst.steady he ht
  obtain ⟨session, hs, hr, hv⟩ := ht.session
  refine ⟨notices, hh, ht.inOrder, ⟨session, ?_, hr, hv⟩, fun task call queue hq hc => handed_next ht hq hc⟩
  rw [SessionRegistry.get?, ht.listed, Option.bind_some, hs]

/-! ## Messages that fail -/

/-- Every call of the process layer waits, and fails in the end. -/
def failing : Setup Unit where
  layer :=
    { call := fun _ _ _ => ⟨(), .waits, []⟩
      resume := fun _ _ _ => ⟨(), .raises (.connection "closed"), []⟩ }
  surroundings := ⟨"/", "/home", []⟩
  servers := []

/-- A session is ready. -/
def serving : Engine Unit :=
  Engine.new { Client.new () Settings.standard with
    sessions := SessionRegistry.empty.add { Session.begin "s" "python" "/w" with stage := .ready } }

/-- A document that was never opened is changed twice, and another one is opened and closed meanwhile. The first message
has failed when the third change of the document is to begin. -/
def editing : List (Event Unit) :=
  [.call (.changeDocument "s" "/w/a.py" "1"), .call (.openDocument "s" "/w/b.py" "python" ""),
    .call (.changeDocument "s" "/w/a.py" "2"), .call (.closeDocument "s" "/w/b.py"), .turn, .turn, .layer () [0] [],
    .call (.changeDocument "s" "/w/a.py" "3"), .turn, .turn, .turn]

theorem serves_serving : serving.Serves "s" [] := by
  have hsteady : serving.Steady := ⟨List.forall_mem_nil _, rfl, fun _ => List.not_mem_nil⟩
  have hnamed : serving.client.sessions.Named := by
    intro id number hm
    cases List.mem_singleton.1 hm
    exact ⟨_, rfl, rfl⟩
  exact serves_nil hsteady hnamed rfl rfl rfl

theorem isAboutDocuments_editing : ∀ event ∈ editing, event.IsAboutDocuments := by
  have hcall : ∀ session call, (Event.call (DocumentCall.operation session call) : Event Unit).IsAboutDocuments :=
    fun session call => ⟨session, call, rfl⟩
  simp only [editing, List.forall_mem_cons]
  exact ⟨hcall "s" (.changing "/w/a.py" "1"), hcall "s" (.opening "/w/b.py" "python" ""),
    hcall "s" (.changing "/w/a.py" "2"), hcall "s" (.closing "/w/b.py"), trivial, trivial, trivial,
    hcall "s" (.changing "/w/a.py" "3"), trivial, trivial, trivial, List.forall_mem_nil _⟩

/-- A message that failed has used up its version: the third change is handed over as version three. -/
theorem failed_change_uses_up_its_version :
    serving.Serves "s" [] ∧ Run failing serving editing (editing.foldl (after failing) serving) ∧
      (∀ event ∈ editing, event.IsAboutDocuments) ∧
      (editing.foldl (after failing) serving).tasks[0]?.map (·.isRunning) = some false ∧
      ∃ notices : List DocumentNotice,
        (editing.foldl (after failing) serving).client.handed "s" = notices.map print ∧ InOrder notices ∧
        notices.length = 4 ∧ recorded notices "file:///w/a.py" = some 2 ∧ recorded notices "file:///w/b.py" = none ∧
        ((editing.foldl (after failing) serving).next failing).client.handed "s" =
          notices.map print ++ [(DocumentNotice.changed "file:///w/a.py" 3 "3").print] := by
  have hrun : Run failing serving editing (editing.foldl (after failing) serving) :=
    run_foldl (by simp [editing, Allows]) serving
  obtain ⟨notices, hh, ho, ⟨session, hs, -, hv⟩, hnext⟩ :=
    versions_follow_the_notices serves_serving hrun isAboutDocuments_editing
  simp only [List.nil_append] at ho hv hnext
  have hversions : ((editing.foldl (after failing) serving).client.sessions.get? "s").map (·.versions) =
      some [("file:///w/a.py", 2)] := by decide +kernel
  have hlength : ((editing.foldl (after failing) serving).client.handed "s").length = 4 := by decide +kernel
  rw [hs, Option.map_some, Option.some.injEq] at hversions
  rw [hversions] at hv
  change _ = [] ++ notices.map print at hh
  rw [List.nil_append] at hh
  rw [hh, List.length_map] at hlength
  have ha : recorded notices "file:///w/a.py" = some 2 := (hv "file:///w/a.py").symm.trans (by decide +kernel)
  have hb : recorded notices "file:///w/b.py" = none := (hv "file:///w/b.py").symm.trans (by decide +kernel)
  have huri : Uri.ofPath "/w/a.py" = "file:///w/a.py" := by decide +kernel
  have hthird := hnext 4 (.changing "/w/a.py" "3") [] (by decide +kernel) rfl
  rw [DocumentCall.notice, huri, ha, hh] at hthird
  exact ⟨serves_serving, hrun, isAboutDocuments_editing, by decide +kernel, notices, hh, ho, hlength, ha, hb, hthird⟩

end Engine

end LanguageSessions
