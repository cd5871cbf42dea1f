import LanguageSessions.Client.Operation
import LanguageSessions.Proofs.Client.Hearing
import LanguageSessions.Proofs.Diagnostic.Runs
import LanguageSessions.Proofs.Uri

/-!
# What a binding sees

While the store of diagnostics is attached to a client, a file holds what the last message left for it that published
diagnostics which could be read (`takes_hearEach`). A document is told to a server under the URI of its path, and the
diagnostics for it are stored under the path of that URI, but a binding looks them up under the path that it was given.
So it sees the diagnostics of its document if its path comes back from its URI (`binding_sees_its_document`), and none
of them if it does not (`binding_misses_its_document`), as with backslashes (`backslashes_hide_the_diagnostics`).
-/

namespace LanguageSessions

/-! ## What messages leave -/

/-- The document that a message publishes diagnostics for and its items, if it does. -/
def Delivery.published? (delivery : Delivery) : Option (String × Json) :=
  match Message.decode delivery.text with
  | .ok (.notification method params _) => if method = Client.publishMethod then Client.published? params else none
  | _ => none

/-- What a message leaves for a file: what is kept of the diagnostics that it publishes for that file. -/
def Delivery.leaves? (visibility : Visibility) (path : String) (delivery : Delivery) : Option (List Diagnostic) :=
  delivery.published?.bind fun published =>
    if Uri.toPath published.1 = path then DiagnosticStore.kept? visibility published.1 published.2 else none

namespace DiagnosticStore

/-- A store took in what was left for some files, and the others stay as they are. -/
structure Takes (left : String → Option (List Diagnostic)) (before after : DiagnosticStore) : Prop where
  visibility : after.visibility = before.visibility
  files : ∀ path, after.files.get? path = (left path).or (before.files.get? path)

theorem takes_nothing (store : DiagnosticStore) : Takes (fun _ => none) store store := ⟨rfl, fun _ => rfl⟩

theorem takes_takeIn (store : DiagnosticStore) (uri : String) (items : Json) :
    Takes (fun path => if Uri.toPath uri = path then kept? store.visibility uri items else none) store
      (store.takeIn (.string uri) items) := by
  have heq : store.takeIn (.string uri) items =
      ((kept? store.visibility uri items).map (store.replace (Uri.toPath uri))).getD store :=
    congrArg (·.getD store) (store.push_snd uri items)
  rw [heq]
  cases kept? store.visibility uri items with
  | none =>
    refine ⟨rfl, fun path => ?_⟩
    rw [ite_self]
    rfl
  | some diagnostics =>
    refine ⟨rfl, fun path => ?_⟩
    change (store.files.set (Uri.toPath uri) diagnostics).get? path = _
    rw [Entries.get?_set]
    split <;> rfl

/-- To take the same in once more changes no file. -/
theorem takes_iterate (store : DiagnosticStore) (uri : String) (items : Json) (times : Nat) :
    Takes (fun path => if Uri.toPath uri = path then kept? store.visibility uri items else none) store
      ((takeIn (.string uri) items)^[times + 1] store) := by
  induction times with
  | zero => exact store.takes_takeIn uri items
  | succ times ih =>
    rw [Function.iterate_succ_apply']
    have hlast := takes_takeIn ((takeIn (.string uri) items)^[times + 1] store) uri items
    rw [ih.visibility] at hlast
    refine ⟨hlast.visibility.trans ih.visibility, fun path => ?_⟩
    rw [hlast.files, ih.files, ← Option.or_assoc, Option.or_self]

end DiagnosticStore

open DiagnosticStore

/-! ## Subscriptions of the store -/

theorem Audience.store_mem_unsubscribe {audience after : Audience} {name : String}
    (h : audience.unsubscribe? name = some after) (topic : Topic) :
    .store ∈ after.of topic ↔ .store ∈ audience.of topic := by
  obtain ⟨number, -, h⟩ := Option.bind_eq_some_iff.1 h
  obtain ⟨observer, -, h⟩ := Option.bind_eq_some_iff.1 h
  cases h
  have herase : ∀ listeners : Subscribers Listener,
      .store ∈ listeners.unsubscribe (.observer number) ↔ .store ∈ listeners :=
    fun listeners => List.mem_erase_of_ne nofun
  cases observer.topic <;> cases topic <;> first | exact herase _ | exact Iff.rfl

namespace Client

variable {σ : Type}

theorem store_mem_tellListener (client : Client σ) (first second : Json) (listener : Listener) (topic : Topic) :
    .store ∈ (tellListener first second client listener).1.audience.of topic ↔ .store ∈ client.audience.of topic := by
  cases listener with
  | store =>
    cases first with
    | string uri =>
      unfold tellListener tellStore
      dsimp only
      rw [logAll_eq]
      split <;> exact Iff.rfl
    | _ => exact Iff.rfl
  | observer number =>
    unfold tellListener
    dsimp only
    split
    · unfold tellObserver
      dsimp only
      split
      · exact Iff.rfl
      · exact Iff.rfl
      · split
        · next unsubscribed => exact Audience.store_mem_unsubscribe unsubscribed topic
        · exact Iff.rfl
    · exact Iff.rfl

/-- Whoever is told of an event, the store stays subscribed to what it is subscribed to. -/
theorem store_mem_tell (client : Client σ) (told : Topic) (first second : Json) (topic : Topic) :
    .store ∈ (client.tell told first second).audience.of topic ↔ .store ∈ client.audience.of topic := by
  unfold tell
  generalize client.audience.of told = listeners
  induction listeners generalizing client with
  | nil => exact Iff.rfl
  | cons listener listeners ih =>
    have hlistener := client.store_mem_tellListener first second listener topic
    unfold Subscribers.emit
    dsimp only
    split
    · exact (ih _).trans hlistener
    · exact (ih _).trans hlistener

/-- A client listens to servers, and its store of diagnostics is subscribed to those that are published. -/
structure Attached (client : Client σ) : Prop where
  listening : client.isListening = true
  subscribed : .store ∈ client.audience.of .diagnostics
  only : .store ∉ client.audience.of .notifications

section Hearing

variable {client : Client σ}

theorem Attached.tell (h : client.Attached) (topic : Topic) (first second : Json) :
    (client.tell topic first second).Attached where
  listening := by
    rw [(client.told_tell topic first second).rest]
    exact h.listening
  subscribed := (client.store_mem_tell topic first second .diagnostics).2 h.subscribed
  only hm := h.only ((client.store_mem_tell topic first second .notifications).1 hm)

/-- A client hears something: it stays attached, and its store takes in what is left. -/
structure Takes (left : String → Option (List Diagnostic)) (before after : Client σ) : Prop where
  attached : after.Attached
  store : DiagnosticStore.Takes left before.diagnostics after.diagnostics

theorem Attached.takes_nothing (h : client.Attached) {later : Client σ}
    (listening : later.isListening = client.isListening) (audience : later.audience = client.audience)
    (diagnostics : later.diagnostics = client.diagnostics) :
    Takes (fun _ => none) client later := by
  refine ⟨⟨listening.trans h.listening, ?_, ?_⟩, ?_⟩
  · rw [audience]
    exact h.subscribed
  · rw [audience]
    exact h.only
  · rw [diagnostics]
    exact client.diagnostics.takes_nothing

theorem Answered.takes_nothing {id : RequestId} {outcome : Outcome} {later : Client σ}
    (ha : Answered id outcome client later) (h : client.Attached) : Takes (fun _ => none) client later := by
  obtain ⟨promises, entries, heq⟩ := ha.rest
  rw [heq]
  exact h.takes_nothing rfl rfl rfl

/-- The store takes in what a notification publishes, and no other notification. -/
theorem Attached.takes_notification (h : client.Attached) (session method : String) (params : Json) :
    Takes (fun path => (if method = publishMethod then published? params else none).bind fun published =>
        if Uri.toPath published.1 = path then kept? client.diagnostics.visibility published.1 published.2 else none)
      client (client.hearNotification session method params) := by
  have hattached := h.tell .notifications (.string method) params
  have hstore : (client.tell .notifications (.string method) params).diagnostics = client.diagnostics := by
    rw [(client.told_tell .notifications (.string method) params).store, List.count_eq_zero.2 h.only]
    rfl
  unfold hearNotification
  dsimp only
  by_cases hm : method = publishMethod
  · rw [if_pos hm, if_neg (by simp [hm])]
    cases published? params with
    | some published =>
      obtain ⟨uri, items⟩ := published
      refine ⟨hattached.tell .diagnostics (.string uri) items, ?_⟩
      obtain ⟨times, htimes⟩ := Nat.exists_eq_succ_of_ne_zero (List.count_pos_iff.2 hattached.subscribed).ne'
      dsimp only
      rw [(told_tell _ .diagnostics (.string uri) items).store, htimes, hstore]
      exact client.diagnostics.takes_iterate uri items times
    | none =>
      refine ⟨⟨hattached.listening, hattached.subscribed, hattached.only⟩, ?_⟩
      change DiagnosticStore.Takes _ client.diagnostics (client.tell .notifications (.string method) params).diagnostics
      rw [hstore]
      exact client.diagnostics.takes_nothing
  · rw [if_neg hm, if_pos (bne_iff_ne.2 hm)]
    refine ⟨hattached, ?_⟩
    rw [hstore]
    exact client.diagnostics.takes_nothing

/-- **The store takes in what each message leaves.** -/
theorem Attached.takes_hear (h : client.Attached) (delivery : Delivery) :
    Takes (fun path => delivery.leaves? client.diagnostics.visibility path) client (client.hear delivery) := by
  have hnothing := h.takes_nothing rfl rfl rfl
  unfold hear hear? Delivery.leaves? Delivery.published?
  rw [if_pos h.listening]
  cases Message.decode delivery.text with
  | error e =>
    cases e with
    | longInteger => exact hnothing
    | _ => exact h.takes_nothing rfl rfl rfl
  | ok message =>
    cases message with
    | notification method params id => exact h.takes_notification delivery.session method params
    | response id result error =>
      cases error with
      | none => exact (client.answered_resolve id result).takes_nothing h
      | some error => exact (client.answered_refuse id result error).takes_nothing h

/-- **A file holds what the last message left for it**, or what it held if none of them left anything. -/
theorem Attached.takes_hearEach (h : client.Attached) (deliveries : List Delivery) :
    Takes (fun path => deliveries.reverse.findSome? (Delivery.leaves? client.diagnostics.visibility path)) client
      (deliveries.foldl hear client) := by
  induction deliveries using List.reverseRecOn with
  | nil => exact h.takes_nothing rfl rfl rfl
  | append_singleton deliveries delivery ih =>
    have hlast := ih.attached.takes_hear delivery
    rw [ih.store.visibility] at hlast
    rw [List.foldl_append]
    refine ⟨hlast.attached, hlast.store.visibility.trans ih.store.visibility, fun path => ?_⟩
    change ((deliveries.foldl hear client).hear delivery).diagnostics.files.get? path = _
    rw [hlast.store.files, ih.store.files, ← Option.or_assoc, List.reverse_concat, List.findSome?_cons]
    cases delivery.leaves? client.diagnostics.visibility path <;> rfl

end Hearing

/-! ## Bindings -/

section Bindings

variable {client : Client σ} (attached : client.Attached) (shown : client.diagnostics.visibility.showDiagnostics = true)
  (binding : Binding) (deliveries : List Delivery)

include attached shown

/-- A binding sees what the last message left for the path that it was given, or what it saw before. -/
theorem bindingDiagnostics_hearEach :
    (deliveries.foldl hear client).bindingDiagnostics binding =
      (deliveries.reverse.findSome? (Delivery.leaves? client.diagnostics.visibility binding.path)).getD
        (client.bindingDiagnostics binding) := by
  have hstore := (attached.takes_hearEach deliveries).store
  unfold bindingDiagnostics
  rw [hstore.visibility, if_pos shown, if_pos shown, DiagnosticStore.get, DiagnosticStore.get, hstore.files]
  exact Option.getD_or

variable (plain : Uri.hasScheme binding.path.toList = false)

include plain

/-- **A binding sees the diagnostics of its document**, if its path has neither a backslash nor a slash in front of a
drive: what the last message left for the file of the URI that the document is told under, or what it saw before. -/
theorem binding_sees_its_document (slashes : '\\' ∉ binding.path.toList)
    (rooted : Uri.unrootDrive binding.path.toList = binding.path.toList) :
    (deliveries.foldl hear client).bindingDiagnostics binding =
      (deliveries.reverse.findSome? (Delivery.leaves? client.diagnostics.visibility
        (Uri.toPath (Uri.ofPath binding.path)))).getD (client.bindingDiagnostics binding) := by
  rw [(Uri.toPath_ofPath_eq_self_iff plain).2 ⟨slashes, rooted⟩]
  exact bindingDiagnostics_hearEach attached shown binding deliveries

/-- If its path has one of the two, then a binding sees nothing of what is published for the file of that URI. -/
theorem binding_misses_its_document
    (other : '\\' ∈ binding.path.toList ∨ Uri.unrootDrive binding.path.toList ≠ binding.path.toList)
    (own : ∀ delivery ∈ deliveries, ∀ uri items, delivery.published? = some (uri, items) →
      Uri.toPath uri = Uri.toPath (Uri.ofPath binding.path)) :
    (deliveries.foldl hear client).bindingDiagnostics binding = client.bindingDiagnostics binding := by
  have hne : Uri.toPath (Uri.ofPath binding.path) ≠ binding.path := by
    intro heq
    obtain ⟨slashes, rooted⟩ := (Uri.toPath_ofPath_eq_self_iff plain).1 heq
    exact other.elim slashes fun hroot => hroot rooted
  have hnone : ∀ delivery ∈ deliveries.reverse,
      delivery.leaves? client.diagnostics.visibility binding.path = none := by
    intro delivery hm
    cases hp : delivery.published? with
    | none => rw [Delivery.leaves?, hp, Option.bind_none]
    | some published =>
      have huri := own delivery (List.mem_reverse.1 hm) published.1 published.2 hp
      rw [Delivery.leaves?, hp, Option.bind_some, if_neg fun heq => hne (huri.symm.trans heq)]
  rw [bindingDiagnostics_hearEach attached shown, List.findSome?_eq_none_iff.2 hnone, Option.getD_none]

end Bindings

/-- What a server publishes: an error in a file on a drive. -/
def publishing : Json :=
  let place := Json.object [("line", .int 0), ("character", .int 0)]
  .object [("uri", .string "file:///C:/w/a.py"), ("diagnostics", .array [
    .object [("range", .object [("start", place), ("end", place)]), ("severity", .int 1),
      ("message", .string "boom")]])]

/-- It is published for the URI of the path with backslashes, and is stored under the path with slashes. -/
theorem backslashes_hide_the_diagnostics :
    let entered := (Client.new () Settings.standard).openScope .everything
    let client := entered.hearNotification "s" publishMethod publishing
    Uri.ofPath "C:\\w\\a.py" = "file:///C:/w/a.py" ∧
      client.diagnostics.files.map (fun file => (file.1, file.2.map (·.message))) = [("C:/w/a.py", ["boom"])] ∧
      (client.bindingDiagnostics ⟨"C:\\w\\a.py", "/w", some "python", none, none, false⟩).length = 0 := by
  refine ⟨?_, ?_, ?_⟩ <;> decide +kernel

end Client

end LanguageSessions
