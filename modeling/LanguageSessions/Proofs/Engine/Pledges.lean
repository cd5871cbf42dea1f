import LanguageSessions.Proofs.Client.Pledges
import LanguageSessions.Proofs.Engine.Lifecycle

/-!
# Nobody waits for the promise of another

Tasks and attempts hold the promises that they wait for. A promise is given out once, so no two of them hold the same
one (`Pledged`), and it is cancelled only if its own holder is (`Honours`): whoever is not cancelled hears what became
of its request.
-/

namespace LanguageSessions.Engine

open Client

variable {σ : Type}

/-! ## Who holds a promise -/

/-- Whoever can wait. -/
inductive Waiter where
  | task (number : Nat)
  | attempt (number : Nat)
  deriving DecidableEq, Repr

/-- Somebody waits, or is about to wait, for a promise. -/
def Holds (engine : Engine σ) : Waiter → Nat → Prop
  | .task number, promise => ∃ activity, engine.Waits number activity ∧ activity.promise? = some promise
  | .attempt number, promise => ∃ phase, engine.attempts.get? number = some phase ∧ phase.promise? = some promise

/-- Pending requests are kept apart, and so are the promises that are waited for. -/
structure Pledged (engine : Engine σ) : Prop where
  apart : engine.client.pending.Apart
  given : ∀ who promise, engine.Holds who promise → promise < engine.client.pending.promises.length
  once : ∀ who other promise, engine.Holds who promise → engine.Holds other promise → other = who

/-- The promises of those who quit may be cancelled, and at most one waiter takes over a promise, a new one. -/
structure Honours (quits : Nat → Prop) (before after : Engine σ) : Prop where
  keeps : before.client.Keeps quits after.client
  holds : ∃ own, ∀ who promise, after.Holds who promise → before.Holds who promise ∨
    who = own ∧ before.client.pending.promises.length ≤ promise ∧ promise < after.client.pending.promises.length

section Rules

variable {quits : Nat → Prop} {before after engine : Engine σ}

/-- **Whatever keeps promises keeps them apart.** -/
theorem Pledged.honours (h : before.Pledged) (hk : Honours quits before after) : after.Pledged := by
  obtain ⟨own, hholds⟩ := hk.holds
  have hlasts := hk.keeps.lasts
  refine ⟨hlasts.apart h.apart, fun who promise hw => ?_, fun who other promise hw ho => ?_⟩
  · rcases hholds who promise hw with hold | ⟨-, -, hlt⟩
    · exact Nat.lt_of_lt_of_le (h.given who promise hold) hlasts.length
    · exact hlt
  · -- A new promise is one that nobody held.
    rcases hholds who promise hw with hw | ⟨hn, hle, -⟩ <;> rcases hholds other promise ho with ho | ⟨hn', hle', -⟩
    · exact h.once who other promise hw ho
    · exact absurd (h.given who promise hw) (Nat.not_lt_of_le hle')
    · exact absurd (h.given other promise ho) (Nat.not_lt_of_le hle)
    · rw [hn, hn']

theorem honours_of_holds (hk : before.client.Keeps quits after.client)
    (hh : ∀ who promise, after.Holds who promise → before.Holds who promise) : Honours quits before after :=
  ⟨hk, .task 0, fun who promise hw => Or.inl (hh who promise hw)⟩

/-- Only the client changes. -/
theorem honours_client {client : Client σ} (hk : engine.client.Keeps quits client) :
    Honours quits engine { engine with client } := by
  refine honours_of_holds hk fun who promise hw => ?_
  cases who <;> exact hw

theorem Honours.refl (engine : Engine σ) : Honours quits engine engine := honours_client (.refl _)

end Rules

/-! ## Turns -/

section Turns

variable {quits : Nat → Prop} {engine : Engine (σ × List Exchange)} {setup : Setup σ}

/-- What a task leaves of the pending requests is what its step left. -/
theorem pending_afterTask (engine : Engine σ) (number : Nat) (step : Client σ × Progress Activity Answer) :
    (engine.afterTask number step).client.pending = step.1.pending := by
  obtain ⟨client, activity | outcome⟩ := step <;> rfl

/-- A task has got on. -/
theorem honours_afterTask (number : Nat) {own : Option Nat} (hown : ∀ promise, own = some promise →
    engine.Holds (.task number) promise) {step : Client (σ × List Exchange) × Progress Activity Answer}
    (h : Engages Activity.promise? own engine.client step) : Honours quits engine (engine.afterTask number step) := by
  have hattempts : (engine.afterTask number step).attempts = engine.attempts := by
    obtain ⟨client, activity | outcome⟩ := step <;> rfl
  have hkeeps : step.1.Keeps (fun _ => False) (engine.afterTask number step).client := by
    obtain ⟨client, activity | outcome⟩ := step
    · exact .refl client
    · exact (client.calm_note _).keeps rfl
  refine ⟨(h.keeps.trans hkeeps).weaken nofun, .task number, fun who promise hw => ?_⟩
  · rw [pending_afterTask]
    cases who with
    | attempt n =>
      obtain ⟨phase, hg, hp⟩ := hw
      exact Or.inl ⟨phase, hattempts ▸ hg, hp⟩
    | task n =>
      obtain ⟨activity, hwaits, hp⟩ := hw
      by_cases hn : n = number
      · subst hn
        rcases h.taken activity promise (waits_afterTask hwaits) hp with ho | hf
        · exact Or.inl (hown promise ho)
        · exact Or.inr ⟨rfl, hf⟩
      · obtain ⟨cancelled, ht⟩ := hwaits
        rw [engine.getElem?_afterTask hn] at ht
        exact Or.inl ⟨activity, ⟨cancelled, ht⟩, hp⟩

theorem honours_beginTask (setup : Setup σ) (number : Nat) :
    Honours quits engine (engine.beginTask setup.recorded number) := by
  unfold beginTask
  split
  · have hnobody : ∀ promise, none = some promise → engine.Holds (.task number) promise := nofun
    refine honours_afterTask number hnobody ?_
    split
    · exact .ends (.refl _) _
    · exact engine.client.engages_beginOperation setup _
  · exact .refl engine

theorem honours_resumeTask (setup : Setup σ) (number : Nat) :
    Honours quits engine (engine.resumeTask setup.recorded number) := by
  unfold resumeTask
  split
  · next activity cancelled ht =>
    exact honours_afterTask number (fun promise hp => ⟨activity, ⟨cancelled, ht⟩, hp⟩)
      (engine.client.engages_resumeActivity setup cancelled activity)
  · exact .refl engine

/-- An attempt has got on. -/
theorem honours_afterAttempt (number : Nat) (attempt : Attempt) {own : Option Nat}
    (hown : ∀ promise, own = some promise → engine.Holds (.attempt number) promise)
    {step : Client (σ × List Exchange) × Progress AttemptPhase String}
    (h : Engages AttemptPhase.promise? own engine.client step) :
    Honours quits engine (engine.afterAttempt number attempt step) := by
  have hpending : (engine.afterAttempt number attempt step).client.pending = step.1.pending := by
    obtain ⟨client, phase | outcome⟩ := step <;> rfl
  have hkeeps : step.1.Keeps (fun _ => False) (engine.afterAttempt number attempt step).client := by
    obtain ⟨client, phase | outcome⟩ := step
    · exact keeps_of_eq rfl rfl rfl
    · exact keeps_of_pending rfl (List.prefix_append _ _) (Nat.le_refl _)
  refine ⟨(h.keeps.trans hkeeps).weaken nofun, .attempt number, fun who promise hw => ?_⟩
  · rw [hpending]
    cases who with
    | task n =>
      obtain ⟨activity, ⟨cancelled, ht⟩, hp⟩ := hw
      rw [tasks_afterAttempt] at ht
      exact Or.inl ⟨activity, ⟨cancelled, ht⟩, hp⟩
    | attempt n =>
      obtain ⟨phase, hg, hp⟩ := hw
      obtain ⟨client, waiting | outcome⟩ := step
      · change (engine.attempts.set number waiting).get? n = some phase at hg
        rw [Entries.get?_set] at hg
        split at hg
        · next hn =>
          subst hn
          cases hg
          rcases h.taken phase promise rfl hp with ho | hf
          · exact Or.inl (hown promise ho)
          · exact Or.inr ⟨rfl, hf⟩
        · exact Or.inl ⟨phase, hg, hp⟩
      · change (engine.attempts.erase number).get? n = some phase at hg
        rw [Entries.get?_erase] at hg
        split at hg
        · cases hg
        · exact Or.inl ⟨phase, hg, hp⟩

theorem honours_beginAttempt (setup : Setup σ) (number : Nat) :
    Honours quits engine (engine.beginAttempt setup.recorded number) := by
  unfold beginAttempt
  split
  · exact .refl engine
  · have hnobody : ∀ promise, none = some promise → engine.Holds (.attempt number) promise := nofun
    refine honours_afterAttempt number _ hnobody ?_
    split
    · exact .ends (.refl _) _
    · exact engine.client.engages_attempt setup _ _

theorem honours_resumeAttempt (setup : Setup σ) (number : Nat) :
    Honours quits engine (engine.resumeAttempt setup.recorded number) := by
  unfold resumeAttempt
  split
  · next attempt phase _ hp =>
    exact honours_afterAttempt number attempt (fun promise hs => ⟨phase, hp, hs⟩)
      (engine.client.engages_resumeAttempt setup _ _ _ phase)
  · exact .refl engine

/-- A message that is heard cancels nobody. -/
theorem keeps_hear (client : Client (σ × List Exchange)) (delivery : Delivery) :
    client.Keeps quits (client.hear delivery) := by
  have hreject : ∀ (next : Client (σ × List Exchange)) (id : RequestId) (fault : Fault), fault.endsRequest = true →
      next.Keeps quits (next.reject id fault) := by
    intro next id fault hf
    have hlasts : next.pending.Lasts quits (next.pending.reject id fault).1 := by
      rw [Pending.reject_fst]
      exact next.pending.lasts_finish id (Pending.isReply_error hf)
    exact (keeps_setPending hlasts).trans (keeps_logAll _ _)
  unfold hear
  split
  · unfold hear?
    split
    · exact .refl client
    · exact client.keeps_log _
    · next method params id _ =>
      exact (client.calm_hearNotification delivery.session method params).keeps
        (client.notified_hearNotification delivery.session method params).accords.pending
    · next id result _ =>
      have hlasts : client.pending.Lasts quits (client.pending.resolve id result).1 := by
        rw [Pending.resolve_fst]
        exact client.pending.lasts_finish id (Pending.isReply_ok result)
      exact (keeps_setPending hlasts).trans (keeps_logAll _ _)
    · next id _ error _ =>
      change client.Keeps quits (client.refuse id error)
      unfold Client.refuse
      dsimp only
      refine Keeps.trans ?_ (hreject _ id _ rfl)
      split
      · exact client.keeps_log _
      · exact .refl client
  · exact .refl client

theorem keeps_forget (client : Client (σ × List Exchange)) (number : Nat) :
    client.Keeps quits (forget client number) := by
  unfold forget
  split
  · exact .refl client
  · dsimp only
    split
    · exact keeps_of_eq rfl rfl rfl
    · exact .refl client

theorem honours_perform (setup : Setup σ) (turn : Turn) :
    Honours quits engine (engine.perform setup.recorded turn) := by
  cases turn with
  | begin task => exact honours_beginTask setup task
  | launch number => exact honours_beginAttempt setup number
  | wake signal =>
    dsimp only [perform, wake]
    split
    · exact honours_resumeTask setup _
    · split
      · exact honours_resumeAttempt setup _
      · exact .refl engine
  | release => exact honours_client (keeps_setPending engine.client.pending.lasts_release)
  | forget number => exact honours_client (keeps_forget _ number)
  | joined ticket => exact honours_client ((engine.client.calm_push rfl).keeps rfl)
  | gathered ticket =>
    exact honours_client ((calm_countGathered _ ticket).keeps (accords_countGathered _ ticket).pending)
  | deliver delivery => exact honours_client (keeps_hear _ delivery)

end Turns

/-! ## Events -/

section Events

variable {engine : Engine (σ × List Exchange)} {setup : Setup σ}

/-- In an event somebody who holds a promise is cancelled: the task that is, or an attempt that it waits for. -/
def Quits (engine : Engine (σ × List Exchange)) (event : Event σ) (promise : Nat) : Prop :=
  ∃ number, event = .cancel number ∧
    ∃ who, engine.Holds who promise ∧ ∀ task, who = .task task → task = number

theorem keeps_interrupt (client : Client σ) {signal : Signal} {quits : Nat → Prop}
    (hq : ∀ index, signal = .promise index → quits index) : client.Keeps quits (interrupt client signal) := by
  unfold interrupt
  split
  · next index =>
    have hlasts : client.pending.Lasts quits (client.pending.abandon index).1 :=
      (client.pending.lasts_abandon index).weaken fun other ho => ho ▸ hq index rfl
    split
    next pending waited heq =>
    rw [heq] at hlasts
    split
    · exact ((client.calm_push rfl).keeps rfl).trans (keeps_setPending hlasts)
    · exact .refl client
  · exact (client.calm_push rfl).keeps rfl

/-- Attempts are cancelled. -/
theorem keeps_cancelAttempts {quits : Nat → Prop} (attempts : List Nat) (engine : Engine (σ × List Exchange))
    (hq : ∀ number promise, engine.Holds (.attempt number) promise → quits promise) :
    engine.client.Keeps quits (attempts.foldl cancelAttempt engine).client := by
  induction attempts generalizing engine with
  | nil => exact .refl _
  | cons number attempts ih =>
    have hone : engine.client.Keeps quits (engine.cancelAttempt number).client ∧
        (engine.cancelAttempt number).attempts = engine.attempts := by
      unfold cancelAttempt
      dsimp only
      split
      · exact ⟨keeps_of_eq rfl rfl rfl, rfl⟩
      · next phase hp =>
        have hsignal : ∀ index, phase.signal = .promise index → quits index :=
          fun index hs => hq number index ⟨phase, hp, phase.promise?_of_signal hs⟩
        have hinterrupted : ∀ client, engine.client.Keeps quits client →
            engine.client.Keeps quits (interrupt client phase.signal) :=
          fun client hc => hc.trans (keeps_interrupt client hsignal)
        exact ⟨hinterrupted _ (keeps_of_eq rfl rfl rfl), rfl⟩
    refine hone.1.trans (ih _ fun n promise hh => ?_)
    obtain ⟨phase, hg, hp⟩ := hh
    exact hq n promise ⟨phase, hone.2 ▸ hg, hp⟩

theorem getElem?_cancel_of_ne (engine : Engine (σ × List Exchange)) {number n : Nat} (hn : number ≠ n) :
    (engine.cancel number).1.tasks[n]? = engine.tasks[n]? := by
  rcases (engine.cancel_rest number).1 with htasks | ⟨task, -, htasks⟩
  · rw [htasks]
  · rw [htasks, List.getElem?_set_ne hn]

/-- A task that is cancelled keeps its promise until its next turn, as attempts do. -/
theorem holds_cancel {number : Nat} {who : Waiter} {promise : Nat} (h : (engine.cancel number).1.Holds who promise) :
    engine.Holds who promise := by
  cases who with
  | attempt n =>
    obtain ⟨phase, hg, hp⟩ := h
    exact ⟨phase, (engine.cancel_rest number).2 ▸ hg, hp⟩
  | task n =>
    obtain ⟨activity, hw, hp⟩ := h
    exact ⟨activity, waits_cancel hw, hp⟩

theorem honours_cancel (number : Nat) :
    Honours (engine.Quits (.cancel number)) engine (engine.cancel number).1 := by
  refine honours_of_holds ?_ fun who promise => holds_cancel
  have hattempts : ∀ n promise, engine.Holds (.attempt n) promise → engine.Quits (.cancel number) promise :=
    fun n promise hh => ⟨number, rfl, _, hh, nofun⟩
  unfold Engine.cancel
  split
  · exact .refl _
  · next task found =>
    dsimp only
    split
    · exact .refl _
    · exact .refl _
    · next activity hs =>
      split
      · next attempts _ =>
        exact keeps_cancelAttempts attempts
          { engine with tasks := engine.tasks.set number { task with isCancelled := true } } hattempts
      · refine keeps_interrupt engine.client fun index hsignal => ?_
        obtain ⟨state, cancelled⟩ := task
        cases hs
        exact ⟨number, rfl, .task number, ⟨activity, ⟨cancelled, found⟩, activity.promise?_of_signal hsignal⟩,
          fun n heq => (Waiter.task.inj heq).symm⟩

/-- The turns to come behind an event, but for those that it brings about. -/
def turnsBehind (engine : Engine (σ × List Exchange)) : Event σ → List Turn
  | .turn => engine.client.queue.tail
  | .reorder queue => queue
  | _ => engine.client.queue

/-- Somebody waits whatever turns are to come. -/
theorem holds_withQueue {queue : List Turn} {who : Waiter} {promise : Nat} :
    (engine.withQueue queue).Holds who promise ↔ engine.Holds who promise := by cases who <;> rfl

theorem Pledged.withQueue (h : engine.Pledged) (queue : List Turn) : (engine.withQueue queue).Pledged where
  apart := h.apart
  given who promise hw := h.given who promise (holds_withQueue.1 hw)
  once who other promise hw ho := h.once who other promise (holds_withQueue.1 hw) (holds_withQueue.1 ho)

/-- **No event cancels the promise of somebody who is not cancelled**, and at most one waiter takes over a promise, a
new one. -/
theorem honours_goes (setup : Setup σ) (event : Event σ) :
    Honours (engine.Quits event) (engine.withQueue (engine.turnsBehind event)) (engine.goes setup event) := by
  cases event with
  | call operation =>
    refine honours_of_holds ((engine.client.calm_push rfl).keeps rfl) fun who promise hw => ?_
    cases who with
    | attempt n => exact hw
    | task n =>
      obtain ⟨activity, hw, hp⟩ := hw
      have hne : (.call operation : Event σ) ≠ .turn := nofun
      have hlater : (engine.goes setup (.call operation)).Waits n activity := hw
      exact ⟨activity, waits_goes hne hlater, hp⟩
  | turn =>
    change Honours _ (engine.withQueue engine.client.queue.tail) (engine.next setup.recorded)
    unfold next
    split
    · next hq =>
      have hnone : engine.withQueue engine.client.queue.tail = engine := by
        rw [hq, List.tail_nil, ← hq]
        rfl
      rw [hnone]
      exact .refl engine
    · next turn queue hq =>
      rw [hq]
      exact honours_perform setup turn
  | expire timer =>
    exact honours_client ((keeps_setPending (engine.client.pending.lasts_expire timer)).trans (keeps_logAll _ _))
  | moveClock time =>
    have hlasts : engine.client.pending.Lasts (engine.Quits (.moveClock time)) _ :=
      engine.client.pending.lasts_moveClock (some time)
    exact honours_client ⟨hlasts, List.prefix_refl _, Nat.le_refl _, fun _ hn hs => absurd hn hs⟩
  | cancel number => exact honours_cancel number
  | hear delivery => exact honours_client (keeps_hear _ delivery)
  | layer _ _ _ => exact honours_client (keeps_of_pending rfl (List.prefix_append _ _) (Nat.le_refl _))
  | listen _ | bind _ | reorder _ => exact honours_client (keeps_of_eq rfl rfl rfl)

/-- A promise is not cancelled while the task that holds it is not. -/
theorem Pledged.not_quits (h : engine.Pledged) {number promise : Nat} (hh : engine.Holds (.task number) promise)
    {event : Event σ} (hne : event ≠ .cancel number) : ¬ engine.Quits event promise := by
  rintro ⟨other, rfl, who, hw, hn⟩
  exact hne (by rw [hn number (h.once who _ promise hw hh).symm])

/-- **In the course of events nobody holds the promise of another.** -/
theorem pledged_course (setup : Setup σ) (layer : σ) (settings : Settings) (events : List (Event σ)) :
    (course setup (fresh layer settings) events).Pledged := by
  induction events using List.reverseRecOn with
  | nil =>
    have hnobody : ∀ who promise, ¬ (fresh layer settings).Holds who promise := by
      rintro (number | number) promise
      · rintro ⟨activity, ⟨cancelled, ht⟩, -⟩
        cases ht
      · rintro ⟨phase, hg, -⟩
        cases hg
    exact ⟨Pending.apart_empty _, fun who promise hw => absurd hw (hnobody who promise),
      fun who _ promise hw => absurd hw (hnobody who promise)⟩
  | append_singleton events event ih =>
    rw [course_concat]
    exact (ih.withQueue _).honours (honours_goes setup event)

/-- **In the course of events requests are tended.** -/
theorem tended_course (setup : Setup σ) (layer : σ) (settings : Settings) (events : List (Event σ)) :
    (course setup (fresh layer settings) events).client.pending.Tended := by
  induction events using List.reverseRecOn with
  | nil => exact Pending.tended_empty _
  | append_singleton events event ih =>
    rw [course_concat]
    exact (honours_goes setup event).keeps.lasts.tended (pledged_course setup layer settings events).apart ih

end Events

end LanguageSessions.Engine
