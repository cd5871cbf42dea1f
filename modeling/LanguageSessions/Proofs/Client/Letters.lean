import LanguageSessions.Proofs.Client.Documents

/-!
# The letters of a client

A letter is a message that the client hands over, together with the session that it is for; what it says of its own
accord is a dispatch. The dispatches of a session are `InOrder` if each of them may follow those before it.

An account is what the proofs about the course of sessions look at: the sessions, the pending requests, the calls of the
process layer and how they were replied to, what is shown about servers, and the letters. The replies are known because
the layer keeps a record of them (`Layer.recorded`).
-/

namespace LanguageSessions

/-! ## Dispatches -/

/-- What the server of a session is told, by what it is for. -/
inductive Dispatch where
  /-- The request that opens the handshake. -/
  | opening (id : RequestId) (params : Json)
  | initialized
  | configuration (settings : Members)
  | document (notice : DocumentNotice)
  /-- A request that somebody makes. -/
  | query (id : RequestId) (method : String) (params : Json)
  | shutdown (id : RequestId)
  | exit

namespace Dispatch

/-- The envelope of a dispatch. -/
def envelope : Dispatch → Json
  | .opening id params => Message.request id.toJson "initialize" params
  | .initialized => Message.notice "initialized" (.object [])
  | .configuration settings =>
    Message.notice "workspace/didChangeConfiguration" (.object [("settings", .object settings)])
  | .document notice => notice.envelope
  | .query id method params => Message.request id.toJson method params
  | .shutdown id => Message.request id.toJson "shutdown" .null
  | .exit => Message.notice "exit" .null

/-- The text of a dispatch. -/
def print (dispatch : Dispatch) : String := dispatch.envelope.print

/-- A handshake was opened. -/
def IsOpened (dispatches : List Dispatch) : Prop := ∃ id params, opening id params ∈ dispatches

/-- The server was asked to shut down. -/
def IsShutDown (dispatches : List Dispatch) : Prop := ∃ id, shutdown id ∈ dispatches

/-- A request that somebody makes. -/
def IsAsked : Dispatch → Prop
  | .query _ _ _ => True
  | _ => False

/-- What a server is told at the end. -/
def IsFarewell : Dispatch → Prop
  | .shutdown _ | .exit => True
  | _ => False

/-- A dispatch may follow those before it. The handshake opens first of all, if it is opened. The server is told once
that the session is set up, and only if it was; its settings and notices about documents come later, and no such notice
comes once it was asked to shut down. It is asked to shut down once, and told to exit once and later. -/
def Follows (before : List Dispatch) : Dispatch → Prop
  | .opening _ _ => before = []
  | .initialized => IsOpened before ∧ .initialized ∉ before
  | .configuration _ => .initialized ∈ before
  | .document _ => .initialized ∈ before ∧ ¬ IsShutDown before
  | .query _ _ _ => True
  | .shutdown _ => ¬ IsShutDown before
  | .exit => IsShutDown before ∧ .exit ∉ before

/-- Every dispatch may follow those before it. -/
def InOrder (dispatches : List Dispatch) : Prop :=
  ∀ before dispatch after, dispatches = before ++ dispatch :: after → dispatch.Follows before

theorem inOrder_nil : InOrder [] := fun before _ _ h => by simp at h

theorem InOrder.concat {dispatches : List Dispatch} {dispatch : Dispatch} (h : InOrder dispatches)
    (hf : dispatch.Follows dispatches) : InOrder (dispatches ++ [dispatch]) := forall_split_concat h hf

/-- Where the handshake was opened, that came first. -/
theorem InOrder.opened_first {dispatches : List Dispatch} (h : InOrder dispatches) (ho : IsOpened dispatches) :
    ∃ id params rest, dispatches = .opening id params :: rest := by
  obtain ⟨id, params, hm⟩ := ho
  obtain ⟨before, after, rfl⟩ := List.append_of_mem hm
  have hnil : before = [] := h before _ after rfl
  subst hnil
  exact ⟨id, params, after, rfl⟩

/-- Where the handshake was not opened, the server is told nothing but what somebody asks for, and to end. -/
theorem InOrder.unopened {dispatches : List Dispatch} (h : InOrder dispatches) (ho : ¬ IsOpened dispatches)
    {dispatch : Dispatch} (hm : dispatch ∈ dispatches) : dispatch.IsAsked ∨ dispatch.IsFarewell := by
  have hfollows : ∀ other ∈ dispatches, ∃ before, before ⊆ dispatches ∧ other.Follows before := by
    intro other hother
    obtain ⟨before, after, rfl⟩ := List.append_of_mem hother
    exact ⟨before, List.subset_append_left _ _, h before other after rfl⟩
  have huntold : .initialized ∉ dispatches := by
    intro htold
    obtain ⟨before, hsub, ⟨id, params, hopened⟩, -⟩ := hfollows _ htold
    exact ho ⟨id, params, hsub hopened⟩
  obtain ⟨before, hsub, hf⟩ := hfollows dispatch hm
  cases dispatch with
  | opening id params => exact absurd ⟨id, params, hm⟩ ho
  | initialized => exact absurd hm huntold
  | configuration settings => exact absurd (hsub hf) huntold
  | document notice => exact absurd (hsub hf.1) huntold
  | query id method params => exact Or.inl trivial
  | shutdown id | exit => exact Or.inr trivial

end Dispatch

/-! ## Letters -/

/-- A message that was handed over under the identifier of a session. -/
inductive Letter where
  /-- A dispatch for the session with a number. -/
  | own (session : String) (number : Nat) (dispatch : Dispatch)
  /-- A notification that somebody had passed on, without a look at the sessions. -/
  | passed (session method : String) (params : Json)

namespace Letter

/-- The identifier that a letter is handed over under. -/
def session : Letter → String
  | .own session _ _ | .passed session _ _ => session

/-- The text of a letter. -/
def text : Letter → String
  | .own _ _ dispatch => dispatch.print
  | .passed _ method params => (Message.notice method params).print

/-- The call that hands a letter over. -/
def call (letter : Letter) : LayerCall := .send letter.session letter.text

/-- The dispatch of a letter for the session with a number. -/
def dispatch? (number : Nat) : Letter → Option Dispatch
  | .own _ other dispatch => if other = number then some dispatch else none
  | .passed _ _ _ => none

/-- Whether somebody asked for a letter. -/
def IsWritten : Letter → Prop
  | .own _ _ (.query _ _ _) | .passed _ _ _ => True
  | _ => False

end Letter

theorem Letter.dispatch?_eq_some_iff {letter : Letter} {number : Nat} {dispatch : Dispatch} :
    letter.dispatch? number = some dispatch ↔ ∃ id, letter = .own id number dispatch := by
  cases letter with
  | passed session method params => simp [Letter.dispatch?]
  | own session other said => simp [Letter.dispatch?]

/-- What a call hands over, and for which session, if it does. -/
def LayerCall.sent? : LayerCall → Option (String × String)
  | .send session text => some (session, text)
  | _ => none

/-! ## The record of a process layer -/

/-- A call of the process layer and how it was replied to. -/
structure Exchange where
  call : LayerCall
  reply : Reply call.Answer

/-- A step whose reply is put on record. -/
def LayerStep.recorded {σ : Type} {call : LayerCall} (record : List Exchange) (step : LayerStep σ call.Answer) :
    LayerStep (σ × List Exchange) call.Answer :=
  ⟨(step.layer, record ++ [⟨call, step.reply⟩]), step.reply, step.deliveries⟩

/-- A process layer that does what another one does, and keeps a record of its replies. -/
def Layer.recorded {σ : Type} (layer : Layer σ) : Layer (σ × List Exchange) where
  call state ticket call := (layer.call state.1 ticket call).recorded state.2
  resume state ticket call := (layer.resume state.1 ticket call).recorded state.2

/-- The same with a layer that keeps a record. -/
def Setup.recorded {σ : Type} (setup : Setup σ) : Setup (σ × List Exchange) :=
  { setup with layer := setup.layer.recorded }

/-! ## Accounts -/

/-- What becomes of the sessions, and what is said to their servers. -/
structure Account where
  sessions : SessionRegistry
  pending : Pending
  /-- The calls of the process layer. -/
  calls : List LayerCall
  /-- How they, and those that went on, were replied to. -/
  record : List Exchange
  /-- What is shown about servers. -/
  servers : Entries String ServerStatus
  letters : List Letter

namespace Account

/-- The dispatches for the session with a number. -/
def dispatches (account : Account) (number : Nat) : List Dispatch := account.letters.filterMap (Letter.dispatch? number)

/-- A letter was handed over, and that did not fail. -/
def Delivered (account : Account) (letter : Letter) : Prop := ⟨letter.call, .returns ()⟩ ∈ account.record

/-- A letter is handed over. -/
def handOver (account : Account) (letter : Letter) (reply : Reply Unit) : Account :=
  { account with
    calls := account.calls ++ [letter.call]
    record := account.record ++ [⟨letter.call, reply⟩]
    letters := account.letters ++ [letter] }

/-- A dispatch for the session comes behind the others. -/
theorem dispatches_concat {account : Account} {letters : List Letter} {id : String} {number : Nat} {dispatch : Dispatch}
    (h : account.letters = letters ++ [.own id number dispatch]) :
    account.dispatches number = letters.filterMap (Letter.dispatch? number) ++ [dispatch] := by
  rw [dispatches, h, List.filterMap_append]
  simp [Letter.dispatch?]

theorem dispatches_handOver (account : Account) (letter : Letter) (reply : Reply Unit) (number : Nat) :
    (account.handOver letter reply).dispatches number =
      account.dispatches number ++ (letter.dispatch? number).toList := by
  rw [dispatches, handOver, List.filterMap_append, dispatches]
  cases h : letter.dispatch? number <;> simp [h]

theorem dispatches_handOver_own (account : Account) (id : String) (number : Nat) (dispatch : Dispatch)
    (reply : Reply Unit) (other : Nat) :
    (account.handOver (.own id number dispatch) reply).dispatches other =
      account.dispatches other ++ if number = other then [dispatch] else [] := by
  rw [dispatches_handOver, Letter.dispatch?]
  split <;> rfl

end Account

/-- The call of the process layer that can be seen, if it is one. -/
def Effect.called? : Effect → Option LayerCall
  | .called call => some call
  | _ => none

namespace Client

variable {σ : Type}

/-- The account of a client whose layer keeps a record. -/
def account (client : Client (σ × List Exchange)) (letters : List Letter) : Account where
  sessions := client.sessions
  pending := client.pending
  calls := client.history.filterMap Effect.called?
  record := client.layer.2
  servers := client.status.servers
  letters

/-- What was handed over for a session can be told from the calls. -/
theorem handed_eq (client : Client σ) (id : String) :
    client.handed id = ((client.history.filterMap Effect.called?).filterMap LayerCall.sent?).filterMap fun sent =>
      if sent.1 = id then some sent.2 else none := by
  rw [handed, List.filterMap_filterMap, List.filterMap_filterMap]
  refine List.filterMap_congr fun effect _ => ?_
  cases effect with
  | called call => cases call <;> rfl
  | logged _ | told _ _ _ | finished _ _ => rfl

section Accounts

variable (client : Client (σ × List Exchange)) (letters : List Letter)

theorem account_note {effect : Effect} (h : effect.called? = none) :
    (client.note effect).account letters = client.account letters := by
  have hc : (client.history ++ [effect]).filterMap Effect.called? = client.history.filterMap Effect.called? := by
    simp [h]
  rw [account, note, account]
  dsimp only
  rw [hc]

theorem account_note_called (call : LayerCall) :
    (client.note (.called call)).account letters =
      { client.account letters with calls := (client.account letters).calls ++ [call] } := by
  rw [account, note, List.filterMap_append]
  rfl

@[simp] theorem account_log (entry : LogEntry) : (client.log entry).account letters = client.account letters :=
  client.account_note letters rfl

@[simp] theorem account_logAll (entries : Log) : (client.logAll entries).account letters = client.account letters := by
  induction entries generalizing client with
  | nil => rfl
  | cons entry entries ih => exact (ih (client.log entry)).trans (client.account_log letters entry)

@[simp] theorem account_setPending (pending : Pending) :
    (client.setPending pending).account letters = { client.account letters with pending } := rfl

@[simp] theorem account_setStatus (session : Session) (state : RunState) (error : Option String) :
    (client.setStatus session state error).account letters =
      { client.account letters with
        servers := client.status.servers.set session.id
          ⟨session.id, session.language, session.root, state, error⟩ } := rfl

end Accounts

end Client

end LanguageSessions
