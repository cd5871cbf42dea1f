import LanguageSessions.Proofs.Client.Teardown
import LanguageSessions.Proofs.Engine.OneSession
import LanguageSessions.Proofs.Engine.Owing

/-!
# What a request leaves behind

A call that makes a request registers it in the turn in which it begins (`Registers`). From then on it waits in the
request, or it has ended, and then the promise of the request has an outcome (`Requesting`). So the request is not pending
any more, and its timer is not armed (`ended_requests_are_not_pending`), unless the caller gave up while it waited for the
response, and its release is still to be carried out.

That holds for a call that is not cancelled while its request is being handed over: then nobody asks for the release, and
the request stays pending (`request_outlives_its_caller`).
-/

namespace LanguageSessions

namespace Client

variable {σ : Type}

/-! ## The promises of a request -/

/-- A step of a request waits for the promises that are its own, or it ends when they have outcomes. -/
structure Sees (own : Nat → Prop) (step : Client σ × Progress RequestPhase Json) : Prop where
  waits : ∀ phase, step.2 = .waits phase → ∀ promise, own promise → phase.promise? = some promise
  ends : ∀ outcome, step.2 = .ends outcome → ∀ promise, own promise → step.1.pending.outcome? promise ≠ none

section Seeing

variable {own : Nat → Prop}

theorem Sees.weaken {more : Nat → Prop} {step : Client σ × Progress RequestPhase Json} (h : Sees own step)
    (hm : ∀ promise, more promise → own promise) : Sees more step :=
  ⟨fun phase hw promise hp => h.waits phase hw promise (hm promise hp),
    fun outcome he promise hp => h.ends outcome he promise (hm promise hp)⟩

theorem sees_nothing {step : Client σ × Progress RequestPhase Json} (none : ∀ promise, ¬ own promise) : Sees own step :=
  ⟨fun _ _ promise hp => absurd hp (none promise), fun _ _ promise hp => absurd hp (none promise)⟩

theorem sees_awaitPromise (client : Client σ) (promise : Nat) : Sees (· = promise) (client.awaitPromise promise) := by
  unfold awaitPromise
  split
  · next outcome houtcome =>
    refine ⟨nofun, ?_⟩
    rintro _ _ _ rfl hnone
    cases houtcome.symm.trans hnone
  · refine ⟨?_, nofun⟩
    rintro _ ⟨⟩ _ rfl
    rfl

theorem sees_afterSend (client : Client σ) (id : RequestId) (promise : Nat) (message : Outgoing)
    {sent : Progress Nat Unit} (hsent : sent ≠ .ends (.error .cancelled)) :
    Sees (· = promise) (client.afterSend id promise message sent) := by
  unfold afterSend
  split
  · refine ⟨?_, nofun⟩
    rintro _ ⟨⟩ _ rfl
    rfl
  · exact client.sees_awaitPromise promise
  · exact absurd rfl hsent
  · exact sees_awaitPromise _ promise

/-- No promise is given out when a request is handed over. -/
theorem length_afterSend (client : Client σ) (id : RequestId) (promise : Nat) (message : Outgoing)
    (sent : Progress Nat Unit) :
    (client.afterSend id promise message sent).1.pending.promises.length = client.pending.promises.length := by
  have hawait : ∀ next : Client σ, (next.awaitPromise promise).1.pending = next.pending := by
    intro next
    unfold awaitPromise
    split <;> rfl
  unfold afterSend
  split
  · rfl
  · rw [hawait]
  · rfl
  · next cause _ =>
    rw [hawait, pending_logAll]
    change (client.pending.reject id (message.failed cause)).1.promises.length = _
    rw [Pending.reject_fst]
    cases hf : client.pending.finish? id (.error (message.failed cause)) with
    | none => rfl
    | some after =>
      obtain ⟨entry, -, rfl⟩ := Pending.finish?_eq_some hf
      exact (List.length_modify ..).trans (congrArg List.length (Pending.take_promises _ id))

end Seeing

section Requests

variable {setup : Setup σ} (client : Client (σ × List Exchange))

/-- A request that is made sees to the promise that it is given. -/
theorem sees_request (hsends : setup.layer.SendsUncancelled) (session method : String) (params : Json)
    (delay : Option Binary64) :
    Sees (fun promise => client.pending.promises.length ≤ promise ∧
        promise < (client.request setup.recorded session method params delay).1.pending.promises.length)
      (client.request setup.recorded session method params delay) := by
  unfold request
  split
  · refine sees_nothing fun promise hp => ?_
    exact Nat.not_lt_of_le hp.1 hp.2
  · dsimp only
    split
    · refine sees_nothing fun promise hp => ?_
      exact Nat.not_lt_of_le hp.1 hp.2
    · next pending promise heq =>
      obtain ⟨rfl, rfl⟩ := Pending.eq_enter_of_register heq
      refine (sees_afterSend _ _ _ _ ?_).weaken fun promise hp => ?_
      · exact ask_uncancelled _ fun state ticket => (hsends state ticket session _).1
      · obtain ⟨hle, hlt⟩ := hp
        have hone := hlt.trans_eq ((length_afterSend _ _ _ _ _).trans
          (congrArg (fun pending => pending.promises.length) (pending_ask _ setup _)))
        rw [Pending.enter, List.length_append, List.length_singleton] at hone
        exact Nat.le_antisymm (Nat.le_of_lt_succ hone) hle

theorem sees_requestIfPrintable (hsends : setup.layer.SendsUncancelled) (session method : String) (params : Json)
    (delay : Option Binary64) :
    Sees (fun promise => client.pending.promises.length ≤ promise ∧
        promise < (client.requestIfPrintable setup.recorded session method params delay).1.pending.promises.length)
      (client.requestIfPrintable setup.recorded session method params delay) := by
  unfold requestIfPrintable
  split
  · refine sees_nothing fun promise hp => ?_
    exact Nat.not_lt_of_le hp.1 hp.2
  · exact client.sees_request hsends session method params delay

/-- A request that goes on sees to its promise, unless its caller was cancelled while it was being handed over. -/
theorem sees_resumeRequest (hsends : setup.layer.SendsUncancelled) {cancelled : Bool} {phase : RequestPhase}
    {promise : Nat} (hp : phase.promise? = some promise)
    (sending : cancelled = true → phase = .waiting promise ∧ client.pending.outcome? promise ≠ none) :
    Sees (· = promise) (client.resumeRequest setup.recorded cancelled phase) := by
  cases cancelled with
  | true =>
    obtain ⟨rfl, hsettled⟩ := sending rfl
    refine ⟨nofun, ?_⟩
    rintro _ _ _ rfl
    exact hsettled
  | false =>
    cases phase with
    | waiting index =>
      cases hp
      exact client.sees_awaitPromise promise
    | sending ticket id index message =>
      cases hp
      refine sees_afterSend _ _ _ _ ?_
      exact client.goOn_uncancelled fun state ticket => (hsends state ticket _ _).2

end Requests

end Client

namespace Engine

open Client

variable {σ : Type}

/-! ## The task of a request -/

/-- A task makes a request: it is still to begin, or it waits in the request, or it has ended, and the promises that are
its own have outcomes. So has the promise that it waits for, if it was cancelled. -/
inductive Requesting (operation : Operation) (own : Nat → Prop) (pending : Pending) : Task → Prop where
  | ready {cancelled : Bool} (nothing : ∀ promise, ¬ own promise) :
      Requesting operation own pending ⟨.ready operation, cancelled⟩
  | waiting {phase : RequestPhase} {cancelled : Bool} (holds : ∀ promise, own promise → phase.promise? = some promise)
      (told : cancelled = true → ∀ promise, phase = .waiting promise → pending.outcome? promise ≠ none) :
      Requesting operation own pending ⟨.waiting (.requesting phase), cancelled⟩
  | finished {outcome : Except Fault Answer} {cancelled : Bool}
      (settled : ∀ promise, own promise → pending.outcome? promise ≠ none) :
      Requesting operation own pending ⟨.finished outcome, cancelled⟩

/-- A task was cancelled while its request was being handed over. -/
def BrokenOff (engine : Engine σ) (task : Nat) : Prop :=
  ∃ ticket id promise message,
    engine.tasks[task]? = some ⟨.waiting (.requesting (.sending ticket id promise message)), true⟩

section Turns

variable {operation : Operation} {own : Nat → Prop} {engine : Engine (σ × List Exchange)} {task : Nat}

/-- A request that has got on. -/
theorem requesting_afterTask {step : Client (σ × List Exchange) × Progress RequestPhase Json} (h : Sees own step)
    (hlt : task < engine.tasks.length) :
    ∃ later, (engine.afterTask task (withValue step)).tasks[task]? = some later ∧
      Requesting operation own (engine.afterTask task (withValue step)).client.pending later := by
  obtain ⟨client, phase | outcome⟩ := step
  · exact ⟨_, List.getElem?_set_self hlt, .waiting (h.waits phase rfl) nofun⟩
  · exact ⟨_, List.getElem?_set_self hlt, .finished (h.ends outcome rfl)⟩

/-- Promises keep their outcomes, and so the task stays in what it is doing. -/
theorem Requesting.retains {before after : Pending} {current : Task} (h : Requesting operation own before current)
    (hr : before.Retains after) : Requesting operation own after current := by
  have hkept : ∀ promise, before.outcome? promise ≠ none → after.outcome? promise ≠ none := by
    intro promise hs
    obtain ⟨outcome, ho⟩ := Option.ne_none_iff_exists'.1 hs
    rw [hr.outcome? ho]
    exact nofun
  cases h with
  | ready nothing => exact .ready nothing
  | waiting holds told => exact .waiting holds fun hc promise hp => hkept promise (told hc promise hp)
  | finished settled => exact .finished fun promise hp => hkept promise (settled promise hp)

/-- The task sees to fewer promises. -/
theorem Requesting.of_fewer {pending : Pending} {current : Task} {fewer : Nat → Prop}
    (h : Requesting operation own pending current) (hf : ∀ promise, fewer promise → own promise) :
    Requesting operation fewer pending current := by
  cases h with
  | ready nothing => exact .ready fun promise hp => nothing promise (hf promise hp)
  | waiting holds told => exact .waiting (fun promise hp => holds promise (hf promise hp)) told
  | finished settled => exact .finished fun promise hp => settled promise (hf promise hp)

/-- A task that waits for a promise and is cancelled gives up, and then the promise has an outcome. -/
theorem outcome?_cancel (hp : engine.Pledged) {promise : Nat} {cancelled : Bool}
    (found : engine.tasks[task]? = some ⟨.waiting (.requesting (.waiting promise)), cancelled⟩) :
    (engine.cancel task).1.client.pending.outcome? promise ≠ none := by
  have hlt : promise < engine.client.pending.promises.length :=
    hp.given (.task task) promise ⟨_, ⟨cancelled, found⟩, rfl⟩
  have habandoned : (engine.client.pending.abandon promise).1.outcome? promise ≠ none := by
    unfold Pending.abandon
    rw [List.getElem?_eq_getElem hlt]
    dsimp only
    split
    · next hsettled =>
      rw [Pending.outcome?, List.getElem?_eq_getElem hlt]
      exact Option.isSome_iff_ne_none.1 hsettled
    · change (engine.client.pending.settle promise (.error .cancelled)).outcome? promise ≠ none
      rw [Pending.outcome?, Pending.getElem?_settle, if_pos rfl, List.getElem?_eq_getElem hlt]
      change ((engine.client.pending.promises[promise]).settle (.error .cancelled)).outcome ≠ none
      rw [Pending.Promise.settle_outcome]
      exact Option.some_ne_none _
  unfold Engine.cancel
  rw [found]
  change (interrupt engine.client (.promise promise)).pending.outcome? promise ≠ none
  unfold interrupt
  dsimp only
  split
  · exact habandoned
  · next hwaited =>
    -- The promise had an outcome before.
    have hsame : (engine.client.pending.abandon promise).1 = engine.client.pending := by
      revert hwaited
      unfold Pending.abandon
      rw [List.getElem?_eq_getElem hlt]
      dsimp only
      split
      · exact fun _ => rfl
      · exact fun hwaited => absurd rfl hwaited
    rwa [hsame] at habandoned

end Turns

section Events

variable {session method : String} {params : Json} {delay : Option Binary64} {own : Nat → Prop}
  {engine : Engine (σ × List Exchange)} {setup : Setup σ} {task : Nat} {current : Task}

/-- In an event a promise is given out to the request that a call makes as it begins. -/
def Registering (setup : Setup σ) (engine : Engine (σ × List Exchange)) (event : Event σ) (task promise : Nat) : Prop :=
  (∃ operation, engine.Begins event task operation) ∧ engine.client.pending.promises.length ≤ promise ∧
    promise < (engine.goes setup event).client.pending.promises.length

/-- The call to make a request begins. -/
theorem requesting_begins (hsends : setup.layer.SendsUncancelled) (nothing : ∀ promise, ¬ own promise)
    (begins : engine.Begins (.turn : Event σ) task (.request session method params delay)) :
    ∃ later, (engine.goes setup .turn).tasks[task]? = some later ∧
      Requesting (.request session method params delay)
        (fun promise => own promise ∨ engine.Registering setup .turn task promise)
        (engine.goes setup .turn).client.pending later := by
  have hlt : task < engine.tasks.length := (List.getElem?_eq_some_iff.1 begins.2.2).1
  obtain ⟨queue, hgoes⟩ : ∃ queue, engine.goes setup .turn = (engine.withQueue queue).afterTask task
      (withValue ((engine.withQueue queue).client.requestIfPrintable setup.recorded session method params delay)) :=
    goes_of_begins setup begins
  have hpending : (engine.goes setup .turn).client.pending =
      ((engine.withQueue queue).client.requestIfPrintable setup.recorded session method params delay).1.pending := by
    rw [hgoes, pending_afterTask]
    rfl
  have hsees := (engine.withQueue queue).client.sees_requestIfPrintable hsends session method params delay
  have hown : Sees (fun promise => own promise ∨ engine.Registering setup .turn task promise) _ :=
    hsees.weaken fun promise hp => by
      obtain ⟨-, hle, hlt⟩ := hp.resolve_left (nothing promise)
      rw [hpending] at hlt
      exact ⟨hle, hlt⟩
  rw [hgoes]
  exact requesting_afterTask hown hlt

/-- The call to make a request goes on. -/
theorem requesting_resumeTask (hsends : setup.layer.SendsUncancelled) (unbroken : ¬ engine.BrokenOff task)
    {operation : Operation} (h : Requesting operation own engine.client.pending current)
    (found : engine.tasks[task]? = some current) :
    ∃ later, (engine.resumeTask setup.recorded task).tasks[task]? = some later ∧
      Requesting operation own (engine.resumeTask setup.recorded task).client.pending later := by
  have hlt : task < engine.tasks.length := (List.getElem?_eq_some_iff.1 found).1
  rw [Engine.resumeTask, found]
  cases h with
  | ready nothing => exact ⟨_, found, .ready nothing⟩
  | finished settled => exact ⟨_, found, .finished settled⟩
  | @waiting phase cancelled holds told =>
    refine requesting_afterTask ?_ hlt
    cases hpromise : phase.promise? with
    | none => cases phase <;> cases hpromise
    | some promise =>
      refine (engine.client.sees_resumeRequest hsends hpromise fun hc => ?_).weaken fun other hother => ?_
      · subst hc
        cases phase with
        | sending ticket id index message => exact absurd ⟨ticket, id, index, message, found⟩ unbroken
        | waiting index =>
          cases hpromise
          exact ⟨rfl, told rfl promise rfl⟩
      · exact Option.some.inj ((holds other hother).symm.trans hpromise)

/-- **A call that makes a request gets on through every event.** -/
theorem Requesting.goes (hsends : setup.layer.SendsUncancelled) (hp : engine.Pledged)
    (unbroken : ¬ engine.BrokenOff task)
    (h : Requesting (.request session method params delay) own engine.client.pending current)
    (found : engine.tasks[task]? = some current) (event : Event σ) :
    ∃ later, (engine.goes setup event).tasks[task]? = some later ∧
      Requesting (.request session method params delay)
        (fun promise => own promise ∨ engine.Registering setup event task promise)
        (engine.goes setup event).client.pending later := by
  by_cases hbegins : ∃ operation, engine.Begins event task operation
  · obtain ⟨operation, rfl, hqueue, ready⟩ := hbegins
    cases found.symm.trans ready
    cases h with
    | ready nothing => exact requesting_begins hsends nothing ⟨rfl, hqueue, ready⟩
  · -- Nothing is registered for the call behind its first turn.
    have hown : (fun promise => own promise ∨ engine.Registering setup event task promise) = own := by
      funext promise
      exact propext (or_iff_left fun hr => hbegins hr.1)
    rw [hown]
    have hretains : engine.client.pending.Retains (engine.goes setup event).client.pending :=
      (honours_goes setup event).keeps.lasts.retains hp.apart
    cases event with
    | call operation =>
      exact ⟨current, (List.getElem?_append_left (List.getElem?_eq_some_iff.1 found).1).trans found, h⟩
    | turn =>
      change engine.client.pending.Retains (engine.next setup.recorded).client.pending at hretains
      change ∃ later, (engine.next setup.recorded).tasks[task]? = some later ∧
        Requesting _ own (engine.next setup.recorded).client.pending later
      rcases next_cases engine setup.recorded with heq | ⟨turn, queue, hq, heq⟩
      · rw [heq]
        exact ⟨current, found, h⟩
      · rw [heq] at hretains ⊢
        have hfound : (engine.withQueue queue).tasks[task]? = some current := found
        rcases (engine.withQueue queue).task_perform setup.recorded turn task with
          hsame | ⟨rfl, heq⟩ | ⟨_, -, -, heq⟩
        · exact ⟨current, hsame.trans hfound, h.retains hretains⟩
        · rw [heq, Engine.beginTask, hfound] at hretains ⊢
          cases h with
          | @ready cancelled nothing =>
            cases cancelled with
            | false => exact absurd ⟨_, rfl, ⟨queue, hq⟩, found⟩ hbegins
            | true =>
              refine ⟨_, List.getElem?_set_self (List.getElem?_eq_some_iff.1 found).1, .finished fun promise hp => ?_⟩
              exact absurd hp (nothing promise)
          | waiting holds told => exact ⟨_, hfound, .waiting holds told⟩
          | finished settled => exact ⟨_, hfound, .finished settled⟩
        · have hunbroken : ¬ (engine.withQueue queue).BrokenOff task := unbroken
          rw [heq]
          exact requesting_resumeTask hsends hunbroken h hfound
    | cancel number =>
      obtain ⟨cancelled', hlater⟩ := engine.getElem?_cancel number found
      have hmore := h.retains hretains
      refine ⟨_, hlater, ?_⟩
      cases h with
      | ready nothing => exact .ready nothing
      | finished settled => cases hmore with | finished settled => exact .finished settled
      | @waiting phase cancelled holds told =>
        refine .waiting holds fun hc promise hphase => ?_
        subst hphase
        by_cases hn : number = task
        · subst hn
          exact outcome?_cancel hp found
        · have hsame := (engine.getElem?_cancel_of_ne hn).trans found
          cases hlater.symm.trans hsame
          cases hmore with | waiting holds told => exact told hc promise rfl
    | expire _ | moveClock _ | layer _ _ _ | hear _ | listen _ | bind _ | reorder _ =>
      exact ⟨current, found, h.retains hretains⟩

end Events

/-! ## In the course of events -/

section Course

variable {setup : Setup σ} {engine first : Engine (σ × List Exchange)} {events : List (Event σ)} {event : Event σ}
  {task promise : Nat}

/-- A task is there ever after. -/
theorem exists_task_goes {current : Task} (found : engine.tasks[task]? = some current) :
    ∃ later, (engine.goes setup event).tasks[task]? = some later := by
  have hset : ∀ (step : Client (σ × List Exchange) × Progress Activity Answer) (queue : List Turn),
      ∃ later, ((engine.withQueue queue).afterTask task step).tasks[task]? = some later := by
    intro step queue
    obtain ⟨client, activity | outcome⟩ := step <;>
      exact ⟨_, List.getElem?_set_self (List.getElem?_eq_some_iff.1 found).1⟩
  rcases task_goes setup event found with ⟨cancelled, hlater⟩ | ⟨queue, heq | heq⟩
  · exact ⟨_, hlater⟩
  · rw [heq]
    unfold Engine.beginTask
    split
    · exact hset _ queue
    · exact ⟨current, found⟩
  · rw [heq]
    unfold Engine.resumeTask
    split
    · exact hset _ queue
    · exact ⟨current, found⟩

theorem exists_task_course {current : Task} (found : (course setup first events).tasks[task]? = some current)
    (more : List (Event σ)) : ∃ later, (course setup first (events ++ more)).tasks[task]? = some later := by
  induction more using List.reverseRecOn with
  | nil =>
    rw [List.append_nil]
    exact ⟨current, found⟩
  | append_singleton more event ih =>
    obtain ⟨later, hlater⟩ := ih
    rw [← List.append_assoc, course_concat]
    exact exists_task_goes hlater

/-- In the course of events a promise was given out to the request that a call made as it began. -/
def Registers (setup : Setup σ) (first : Engine (σ × List Exchange)) (events : List (Event σ)) (task promise : Nat) :
    Prop :=
  ∃ passed event rest, events = passed ++ event :: rest ∧ (course setup first passed).Registering setup event task promise

theorem Registers.concat_cases (h : Registers setup first (events ++ [event]) task promise) :
    Registers setup first events task promise ∨ (course setup first events).Registering setup event task promise := by
  obtain ⟨passed, registered, rest, split, hr⟩ := h
  rcases concat_eq_append_cons split with ⟨rfl, rfl⟩ | ⟨more, rfl⟩
  · exact Or.inr hr
  · exact Or.inl ⟨passed, registered, more, rfl, hr⟩

/-- Nothing was registered for a task that is not there yet. -/
theorem Registers.lt_length (h : Registers setup first events task promise) :
    task < (course setup first events).tasks.length := by
  obtain ⟨passed, event, rest, rfl, ⟨operation, -, -, ready⟩, -⟩ := h
  obtain ⟨later, hlater⟩ := exists_task_course ready (event :: rest)
  exact (List.getElem?_eq_some_iff.1 hlater).1

end Course

section Ends

variable {session method : String} {params : Json} {delay : Option Binary64} (setup : Setup σ) (layer : σ)
  (settings : Settings) {task : Nat}

/-- A call that makes a request waits in the request, or it has ended and the promise of the request has an outcome. -/
theorem requesting_course (hsends : setup.layer.SendsUncancelled) (events : List (Event σ))
    (called : CalledFor setup (fresh layer settings) events task (.request session method params delay))
    (unbroken : ∀ passed rest, events = passed ++ rest → ¬ (course setup (fresh layer settings) passed).BrokenOff task) :
    ∃ current, (course setup (fresh layer settings) events).tasks[task]? = some current ∧
      Requesting (.request session method params delay) (Registers setup (fresh layer settings) events task)
        (course setup (fresh layer settings) events).client.pending current := by
  obtain ⟨before, after, rfl, rfl⟩ := called
  induction after using List.reverseRecOn with
  | nil =>
    refine ⟨⟨.ready _, false⟩, ?_, .ready fun promise hr => ?_⟩
    · rw [course_concat]
      exact List.getElem?_concat_length
    · rcases hr.concat_cases with hbefore | ⟨⟨operation, hturn, -⟩, -⟩
      · exact Nat.lt_irrefl _ hbefore.lt_length
      · cases hturn
  | append_singleton after event ih =>
    rw [← List.cons_append, ← List.append_assoc] at unbroken ⊢
    obtain ⟨current, found, h⟩ := ih fun passed rest split => unbroken passed (rest ++ [event]) (by rw [split, List.append_assoc])
    have hgoes := h.goes hsends (pledged_course setup layer settings _) (unbroken _ [event] rfl) found event
    rw [course_concat]
    obtain ⟨later, hlater, hnext⟩ := hgoes
    exact ⟨later, hlater, hnext.of_fewer fun promise hr => hr.concat_cases⟩

/-- **A request that has ended is not pending.** A call makes a request and ends, and is not cancelled while the request
is being handed over. Then the promise of the request has an outcome, and the request is not pending and no timer is
armed for it; unless the caller gave up while it waited for the response, and its release is still to be carried out. -/
theorem ended_requests_are_not_pending (hsends : setup.layer.SendsUncancelled) (events : List (Event σ))
    (called : CalledFor setup (fresh layer settings) events task (.request session method params delay))
    (unbroken : ∀ passed rest, events = passed ++ rest → ¬ (course setup (fresh layer settings) passed).BrokenOff task)
    {outcome : Except Fault Answer} {cancelled : Bool}
    (ended : (course setup (fresh layer settings) events).tasks[task]? = some ⟨.finished outcome, cancelled⟩)
    {promise : Nat} (registers : Registers setup (fresh layer settings) events task promise) :
    let pending := (course setup (fresh layer settings) events).client.pending
    ∃ own outcome, pending.promises[promise]? = some ⟨own, some outcome⟩ ∧
      (pending.has own = true → outcome = .error .cancelled ∧ own ∈ pending.releases) ∧
      (pending.has own = false → ∀ timer ∈ pending.timers, timer.request ≠ own) := by
  intro pending
  obtain ⟨current, found, h⟩ := requesting_course setup layer settings hsends events called unbroken
  have tended : pending.Tended := tended_course setup layer settings events
  have apart : pending.Apart := (pledged_course setup layer settings events).apart
  cases found.symm.trans ended
  cases h with
  | finished settled =>
    obtain ⟨result, houtcome⟩ := Option.ne_none_iff_exists'.1 (settled promise registers)
    obtain ⟨⟨own, _⟩, hpromise, rfl⟩ := Pending.outcome?_eq_some_iff.1 houtcome
    refine ⟨own, result, hpromise, fun hhas => ?_, fun hhas timer hm heq => ?_⟩
    · obtain ⟨entry, hentry⟩ := Option.isSome_iff_exists.1 hhas
      have hm := Entries.mem_of_get? hentry
      obtain ⟨owner, howner, hrequest⟩ := apart.owner own entry hm
      have hsame : entry.promise = promise := tended.index_eq howner hpromise hrequest
      rw [← hsame] at houtcome
      exact tended.settled _ hm result houtcome
    · obtain ⟨⟨key, entry⟩, hentry, hkey, -⟩ := tended.timed timer hm
      obtain rfl : key = own := hkey.trans heq
      have hlisted : (pending.entries.get? key).isSome = true := by
        rw [Entries.get?_of_mem apart.once hentry]
        rfl
      exact Bool.false_ne_true (hhas.symm.trans hlisted)

end Ends

/-! ## A request that outlives its caller -/

/-- A call of the process layer has to be waited for, and it does all else at once. -/
def hesitant (slow : LayerCall) : Setup Unit where
  layer :=
    { call := fun _ _ call => ⟨(), if call = slow then .waits else .returns (willing call), []⟩
      resume := fun _ _ call => ⟨(), .returns (willing call), []⟩ }
  surroundings := ⟨"/", "/home", []⟩
  servers := []

/-- A session is ready. Somebody makes a request, and gives up while it is being handed over. -/
def desisting : List (Event Unit) :=
  greeting.take 8 ++ [.call (.request "s" "x/y" .null none), .turn, .cancel 1, .turn]

/-- The call has ended, and its request is pending, with an armed timer and no release to come. -/
theorem request_outlives_its_caller :
    let setup := hesitant (.send "s" (Message.request (.int 2) "x/y" .null).print)
    let engine := course setup (fresh () Settings.standard) desisting
    engine.tasks[1]?.map (·.state matches .finished (.error .cancelled)) = some true ∧
      engine.client.queue = [] ∧
      engine.client.pending.entries.map (fun entry => (entry.1, entry.2.method)) = [(.number 2, "x/y")] ∧
      engine.client.pending.timers.map (·.request) = [.number 2] ∧ engine.client.pending.releases = [] := by
  decide +kernel

end Engine

end LanguageSessions
