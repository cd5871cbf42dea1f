import LanguageSessions.Proofs.Client.Telling
import LanguageSessions.Proofs.Json.RoundTrip
import LanguageSessions.Proofs.Message.Kinds
import LanguageSessions.Proofs.Pending.Operations

/-!
# What a message brings about

A message that is taken in is a notification, a response or neither. A notification reaches all who listen, and leaves
the pending requests alone (`Notified`); a response ends the request with its identifier and leaves all others alone
(`Answered`); any other text is reported and does nothing else. `each_message_has_its_own_effect` says that it is
always one of the three, by the members that the text has as JSON.
-/

namespace LanguageSessions.Client

variable {σ : Type}

/-! ## Notifications -/

/-- What follows behind the telling of a notification: the diagnostics that it publishes are told. -/
inductive Published (method : String) (params : Json) (middle : Client σ) : Client σ → Prop where
  /-- Published diagnostics reach all who are subscribed to them; a list that counts as missing is empty. -/
  | diagnostics {members : Members} {uri : String} {after : Client σ}
      (publishes : method = "textDocument/publishDiagnostics") (object : params = .object members)
      (named : Members.get? members "uri" = some (.string uri))
      (told : Told middle.audience.diagnostics (.string uri)
        (let items := (Members.get? members "diagnostics").getD .null
          if items.isTruthy then items else .array []) middle after) : Published method params middle after
  /-- Diagnostics without the URI of a document are reported. -/
  | malformed (text : String) (publishes : method = "textDocument/publishDiagnostics")
      (unnamed : ∀ members uri, params = .object members → Members.get? members "uri" ≠ some (.string uri)) :
      Published method params middle (middle.log (.error text))
  | nothing (other : method ≠ "textDocument/publishDiagnostics") : Published method params middle middle

/-- A notification is told to all who are subscribed, and then the diagnostics that it publishes; no request is
touched. -/
structure Notified (method : String) (params : Json) (before after : Client σ) : Prop where
  told : ∃ middle, Told before.audience.notifications (.string method) params before middle ∧
    Published method params middle after
  pending : after.pending = before.pending
  queue : after.queue = before.queue

theorem Told.pending {listeners : List Listener} {first second : Json} {before after : Client σ}
    (h : Told listeners first second before after) : after.pending = before.pending := by rw [h.rest]

theorem Told.queue {listeners : List Listener} {first second : Json} {before after : Client σ}
    (h : Told listeners first second before after) : after.queue = before.queue := by rw [h.rest]

theorem Published.pending {method : String} {params : Json} {middle after : Client σ}
    (h : Published method params middle after) : after.pending = middle.pending := by
  cases h with
  | diagnostics _ _ _ told => exact told.pending
  | malformed text _ _ => rfl
  | nothing _ => rfl

theorem Published.queue {method : String} {params : Json} {middle after : Client σ}
    (h : Published method params middle after) : after.queue = middle.queue := by
  cases h with
  | diagnostics _ _ _ told => exact told.queue
  | malformed text _ _ => rfl
  | nothing _ => rfl

theorem published?_eq_some_iff {params : Json} {uri : String} {items : Json} :
    published? params = some (uri, items) ↔ ∃ members, params = .object members ∧
      Members.get? members "uri" = some (.string uri) ∧
      items = (let found := (Members.get? members "diagnostics").getD .null
        if found.isTruthy then found else .array []) := by
  constructor
  · intro h
    unfold published? at h
    split at h
    · next members =>
      split at h
      · next found hu =>
        cases h
        exact ⟨members, rfl, hu, rfl⟩
      · cases h
    · cases h
  · rintro ⟨members, rfl, hu, rfl⟩
    rw [published?, hu]

theorem published?_eq_none {params : Json} (h : published? params = none) (members : Members) (uri : String)
    (hp : params = .object members) : Members.get? members "uri" ≠ some (.string uri) := by
  intro hu
  rw [published?_eq_some_iff.2 ⟨members, hp, hu, rfl⟩] at h
  cases h

theorem published_hearNotification (client : Client σ) (session method : String) (params : Json) :
    Published method params (client.tell .notifications (.string method) params)
      (client.hearNotification session method params) := by
  unfold hearNotification
  dsimp only
  split
  · next hm => exact .nothing (bne_iff_ne.1 hm)
  · next hm =>
    have hpublishes : method = publishMethod := by simpa using hm
    split
    · next uri items hp =>
      obtain ⟨members, hobject, hnamed, rfl⟩ := published?_eq_some_iff.1 hp
      exact .diagnostics hpublishes hobject hnamed (told_tell _ .diagnostics _ _)
    · next hp => exact .malformed _ hpublishes (published?_eq_none hp)

/-- **A notification reaches all who listen, and no request.** -/
theorem notified_hearNotification (client : Client σ) (session method : String) (params : Json) :
    Notified method params client (client.hearNotification session method params) := by
  have htold := client.told_tell .notifications (.string method) params
  have hpublished := client.published_hearNotification session method params
  exact ⟨⟨_, htold, hpublished⟩, hpublished.pending.trans htold.pending, hpublished.queue.trans htold.queue⟩

/-! ## Responses -/

/-- The outcome that a response brings: its result, or the text and the code of its error. -/
def outcomeOf (result : Json) : Option Members → Outcome
  | none => .ok result
  | some error =>
    .error (.protocol ((Members.get? error "message").getD (.string "Unknown error")).display
      ((Members.get? error "code").getD .null))

/-- A request is ended with an outcome: if it is in the table, it is taken out with its timer, and its promise takes the
outcome unless it has one. All other requests, timers and promises stay, and nothing else changes but that waiters go
on and that something may be reported. In a table whose parts agree, it is its own timer and its own promise that the
request is ended with, and the promise has an outcome before only if its waiter gave up. -/
structure Answered (id : RequestId) (outcome : Outcome) (before after : Client σ) : Prop where
  entries : after.pending.entries = before.pending.entries.filter fun entry => decide (entry.1 ≠ id)
  ended : ∀ entry, before.pending.entries.get? id = some entry →
    after.pending.timers = (before.pending.timers.filter fun timer => timer.handle != entry.timer) ∧
    ∀ index : Nat, after.pending.promises[index]? =
      if entry.promise = index then before.pending.promises[index]?.map (·.settle outcome)
      else before.pending.promises[index]?
  unknown : before.pending.entries.get? id = none → after.pending = before.pending
  owned : before.pending.Consistent →
    Pending.Leaves (fun other => decide (other ≠ id)) before.pending after.pending ∧
    ∀ entry, before.pending.entries.get? id = some entry →
      (before.pending.outcome? entry.promise = none ∧ after.pending.outcome? entry.promise = some outcome) ∨
      (before.pending.outcome? entry.promise = some (.error .cancelled) ∧
        after.pending.outcome? entry.promise = some (.error .cancelled))
  rest : ∃ (promises : List Nat) (entries : Log), after = { before with
    pending := after.pending
    queue := before.queue ++ promises.map fun promise => .wake (.promise promise)
    history := before.history ++ entries.map .logged }

/-- The promise of a request that is ended has no outcome before, or it is cancelled and stays so. -/
theorem outcome_finish {pending : Pending} (h : pending.Consistent) {id : RequestId} (outcome : Outcome)
    {entry : PendingRequest} (he : pending.entries.get? id = some entry) :
    (pending.outcome? entry.promise = none ∧
      ((pending.finish? id outcome).getD pending).outcome? entry.promise = some outcome) ∨
    (pending.outcome? entry.promise = some (.error .cancelled) ∧
      ((pending.finish? id outcome).getD pending).outcome? entry.promise = some (.error .cancelled)) := by
  obtain ⟨promise, hp, hr, hs⟩ := h.owner id entry (Entries.mem_of_get? he)
  have hafter := h.finish_settles id outcome hp hr
  have hbefore : pending.outcome? entry.promise = promise.outcome := by
    rw [Pending.outcome?, hp]
    rfl
  rcases hs with hs | ⟨hs, -⟩
  · rw [hs] at hafter hbefore
    exact Or.inl ⟨hbefore, hafter⟩
  · rw [hs] at hafter hbefore
    exact Or.inr ⟨hbefore, hafter⟩

/-- To end a request in the table, to wake its waiter and to report something answers it. -/
theorem answered_finish (client : Client σ) (id : RequestId) (outcome : Outcome) (before after : Log) :
    Answered id outcome client
      (((client.logAll before).setPending ((client.pending.finish? id outcome).getD client.pending)).logAll after) := by
  rw [logAll_eq, logAll_eq]
  constructor
  case entries =>
    change ((client.pending.finish? id outcome).getD client.pending).entries = _
    rw [← Pending.take_entries]
    cases he : client.pending.entries.get? id with
    | none => rw [Pending.finish?, Pending.take, he, Option.map_none, Option.getD_none]
    | some entry => rw [Pending.finish?, he, Option.map_some, Option.getD_some, Pending.settle]
  case ended =>
    intro entry he
    change ((client.pending.finish? id outcome).getD client.pending).timers = _ ∧
      ∀ index : Nat, ((client.pending.finish? id outcome).getD client.pending).promises[index]? = _
    rw [Pending.finish?, he, Option.map_some, Option.getD_some]
    refine ⟨by rw [Pending.settle, Pending.take, he], fun index => ?_⟩
    rw [Pending.getElem?_settle, Pending.take_promises]
  case unknown =>
    intro hn
    change (client.pending.finish? id outcome).getD client.pending = client.pending
    rw [Pending.finish?, hn]
    rfl
  case owned => exact fun h => ⟨h.finish_leaves id outcome, fun entry he => outcome_finish h outcome he⟩
  case rest =>
    refine ⟨client.pending.newlySettled ((client.pending.finish? id outcome).getD client.pending), before ++ after, ?_⟩
    simp only [setPending, pushAll, List.map_append, List.append_assoc]

theorem answered_resolve (client : Client σ) (id : RequestId) (result : Json) :
    Answered id (.ok result) client (client.resolve id result) := by
  have ha := client.answered_finish id (.ok result) [] (client.pending.resolve id result).2.2
  rw [← Pending.resolve_fst] at ha
  exact ha

theorem answered_refuse (client : Client σ) (id : RequestId) (result : Json) (error : Members) :
    Answered id (outcomeOf result (some error)) client (client.refuse id error) := by
  have ha := fun before => client.answered_finish id (outcomeOf result (some error)) before
    (client.pending.reject id (.protocol (errorText error) ((Members.get? error "code").getD .null))).2.2
  unfold outcomeOf at ha
  rw [← Pending.reject_fst] at ha
  unfold refuse
  dsimp only
  split
  · next method _ => exact ha [answeredWithError method id (errorText error)]
  · exact ha []

/-! ## All messages -/

open Message

/-- **Each message has its own effect, and no other.** A text is taken in unless an integer in it is too long. If it is
an object that names its method, it is passed on as a notification; if it is one that names no method, but the request
that it answers, it ends that request; and if it is neither, it is reported and does nothing. No object is both. -/
theorem each_message_has_its_own_effect (client : Client σ) (session text : String)
    (hl : Json.parse text ≠ .error .longInteger) :
    ∃ later, client.hear? session text = some later ∧
      ((∃ members method params id, Json.parse text = .ok (.object members) ∧
          IsNotification members method params id ∧ Notified method params client later) ∨
        (∃ members id result error, Json.parse text = .ok (.object members) ∧
          IsResponse members id result error ∧ Answered id (outcomeOf result error) client later) ∨
        ((∀ members, Json.parse text = .ok (.object members) →
          (∀ method params id, ¬ IsNotification members method params id) ∧
          (∀ id result error, ¬ IsResponse members id result error)) ∧
          ∃ report, later = client.log (.error report))) ∧
      ∀ members method params id request result error, IsNotification members method params id →
        ¬ IsResponse members request result error := by
  have hexclusive : ∀ members method params id request result error, IsNotification members method params id →
      ¬ IsResponse members request result error := fun _ _ _ _ _ _ _ hn => hn.not_response
  unfold hear? Message.decode
  cases hp : Json.parse text with
  | error e =>
    cases e with
    | longInteger => exact absurd hp hl
    | notJson => exact ⟨_, rfl, Or.inr (Or.inr ⟨nofun, _, rfl⟩), hexclusive⟩
  | ok value =>
    cases value with
    | object members =>
      dsimp only [Message.ofJson]
      cases hm : Message.ofMembers members with
      | error e =>
        have hneither : ∀ members', (Except.ok (.object members) : Except Json.ParseError Json) = .ok (.object members') →
            (∀ method params id, ¬ IsNotification members' method params id) ∧
            (∀ id result error, ¬ IsResponse members' id result error) := by
          intro members' heq
          cases heq
          refine ⟨fun _ _ _ hn => ?_, fun _ _ _ hr => ?_⟩
          · rw [ofMembers_eq_notification_iff.2 hn] at hm
            cases hm
          · rw [ofMembers_eq_response_iff.2 hr] at hm
            cases hm
        cases e with
        | longInteger => exact absurd hm (ofMembers_ne_longInteger members)
        | _ => exact ⟨_, rfl, Or.inr (Or.inr ⟨hneither, _, rfl⟩), hexclusive⟩
      | ok message =>
        cases message with
        | notification method params id =>
          exact ⟨_, rfl, Or.inl ⟨members, method, params, id, rfl, ofMembers_eq_notification_iff.1 hm,
            client.notified_hearNotification session method params⟩, hexclusive⟩
        | response id result error =>
          have hr := ofMembers_eq_response_iff.1 hm
          cases error with
          | none => exact ⟨_, rfl, Or.inr (Or.inl ⟨members, id, result, none, rfl, hr, client.answered_resolve id result⟩),
              hexclusive⟩
          | some error => exact ⟨_, rfl, Or.inr (Or.inl ⟨members, id, result, some error, rfl, hr,
              client.answered_refuse id result error⟩), hexclusive⟩
    | _ => exact ⟨_, rfl, Or.inr (Or.inr ⟨nofun, _, rfl⟩), hexclusive⟩

/-- An error without a text ends its own request; the other one goes on waiting. -/
theorem error_without_text_ends_its_request :
    let client : Client Unit := { Client.new () Settings.standard with
      pending := ((Pending.empty .nan).enter (.number 1) "textDocument/hover" none none).enter (.number 2)
        "textDocument/definition" none none }
    let text := "\x7b\"id\": 2, \"method\": null, \"error\": \x7b\"code\": -32601\x7d\x7d"
    Json.parse text ≠ .error .longInteger ∧ ∃ later, client.hear? "python-1" text = some later ∧
      later.pending.outcome? 1 = some (.error (.protocol "Unknown error" (.int (-32601)))) ∧
      later.pending.outcome? 0 = none ∧ later.audience = Audience.empty := by
  intro client text
  have hw : Json.Writable (.object [("id", .int 2), ("method", .null),
      ("error", .object [("code", .int (-32601))])]) := by
    refine .object _ (by decide) (List.forall_mem_cons.2 ⟨.int _ (by decide +kernel), List.forall_mem_cons.2 ⟨.null,
      List.forall_mem_singleton.2 (.object _ (by decide) (List.forall_mem_singleton.2 (.int _ (by decide +kernel))))⟩⟩)
  have htext : text = Json.print (.object [("id", .int 2), ("method", .null),
      ("error", .object [("code", .int (-32601))])]) := by decide +kernel
  have hp := Json.parse_print hw
  rw [← htext] at hp
  have hl : Json.parse text ≠ .error .longInteger := by
    rw [hp]
    intro h
    cases h
  obtain ⟨later, hh, hcases, -⟩ := client.each_message_has_its_own_effect "python-1" text hl
  refine ⟨hl, later, hh, ?_⟩
  rw [hp] at hcases
  obtain ⟨members, method, params, id, hm, hn, -⟩ | ⟨members, id, result, error, hm, hr, ha⟩ | ⟨hnone, -⟩ := hcases
  · cases hm
    cases hn.method
  · cases hm
    have hid : (Json.int 2) = id.toJson := Option.some.inj hr.id
    have herror : Json.object [("code", .int (-32601))] = (error.map Json.object).getD .null := hr.error
    obtain _ | error := error
    · cases herror
    obtain number | _ := id
    · cases hid
      cases herror
      have hpromises := (ha.ended _ rfl).2
      obtain ⟨promises, entries, hrest⟩ := ha.rest
      refine ⟨?_, ?_, by rw [hrest]; rfl⟩
      · rw [Pending.outcome?, hpromises 1]
        rfl
      · rw [Pending.outcome?, hpromises 0]
        rfl
    · cases hid
  · refine absurd ?_ ((hnone _ rfl).2 (.number 2) .null (some [("code", .int (-32601))]))
    exact ⟨rfl, rfl, rfl, rfl⟩

end LanguageSessions.Client
