import LanguageSessions.Proofs.Client.Deeds

/-!
# Steps of a client

`Does` says of a step of a client that it does its deeds in a role, and what it comes to: what holds of the account then,
and of the phase in which the step waits or of the outcome with which it ends. Steps are put together by `Does.andThen`.

Here are the steps that all others are made of: calls of the process layer, notifications and requests. A notification
that was handed over ends well only if that did not fail, and a request gets a result only if somebody answers it.
-/

namespace LanguageSessions

/-- A message is what a letter says. -/
structure Outgoing.Carries (message : Outgoing) (letter : Letter) : Prop where
  session : message.session = letter.session
  text : message.text = letter.text

/-! ## Answers -/

namespace Account

/-- A request got a result. -/
def Brings (account : Account) (id : RequestId) (result : Json) : Prop :=
  ∃ index : Nat, account.pending.promises[index]? = some ⟨id, some (.ok result)⟩

/-- A request that has got so far waits for the promise of an identifier. -/
def Awaits (account : Account) (id : RequestId) (phase : RequestPhase) : Prop :=
  ∃ promise : Promise, promise.request = id ∧
    match phase with
    | .sending _ _ index _ | .waiting index => account.pending.promises[index]? = some promise

/-- A request waits for its promise, or it ends with the result that it got. -/
structure Awaiting (id : RequestId) (account : Account) (progress : Progress RequestPhase Json) : Prop where
  waits : ∀ phase, progress = .waits phase → account.Awaits id phase
  brings : ∀ result, progress = .ends (.ok result) → account.Brings id result

/-- A letter is being handed over, or it was delivered if that went well. -/
structure Posting (letter : Letter) (account : Account) (progress : Progress NoticePhase Unit) : Prop where
  waits : ∀ phase, progress = .waits phase → phase.message.Carries letter
  delivered : progress = .ends (.ok ()) → account.Delivered letter

variable {role : Role} {account later : Account}

theorem Since.awaits (h : Since role account later) {id : RequestId} {phase : RequestPhase}
    (ha : account.Awaits id phase) : later.Awaits id phase := by
  obtain ⟨promise, rfl, hp⟩ := ha
  cases phase with
  | sending ticket id index message =>
    obtain ⟨promise', hl, hr, -⟩ := h.pending.promise index promise hp
    exact ⟨promise', hr, hl⟩
  | waiting index =>
    obtain ⟨promise', hl, hr, -⟩ := h.pending.promise index promise hp
    exact ⟨promise', hr, hl⟩

theorem Brings.answered {id : RequestId} {result : Json} (h : account.Brings id result) {number : Nat} {params : Json}
    (hm : .opening id params ∈ account.dispatches number) : account.Answered number := by
  obtain ⟨index, hp⟩ := h
  exact ⟨id, params, index, result, hm, hp⟩

end Account

namespace Client

open Account

variable {σ φ ψ α β : Type}

/-! ## Steps -/

/-- Deeds lead from an account to that of the client behind a step, and the step comes to what it should. -/
def Does (role : Role) (origin : Account) (post : Account → Progress φ α → Prop)
    (step : Client (σ × List Exchange) × Progress φ α) : Prop :=
  ∃ letters, Deeds role origin (step.1.account letters) ∧ post (step.1.account letters) step.2

/-- A step that may come to anything. -/
def Anything (_ : Account) (_ : Progress φ α) : Prop := True

section Rules

variable {role : Role} {origin : Account} {post : Account → Progress φ α → Prop} {post' : Account → Progress ψ β → Prop}
  {step : Client (σ × List Exchange) × Progress φ α} {client : Client (σ × List Exchange)} {letters : List Letter}

/-- Nothing is done that the account tells of. -/
theorem does_nothing {progress : Progress φ α} (ha : client.account letters = origin) (hp : post origin progress) :
    Does role origin post (client, progress) := ⟨letters, by rw [ha]; exact .refl, by rw [ha]; exact hp⟩

/-- One deed is done. -/
theorem does_deed {progress : Progress φ α} (d : Deed role origin (client.account letters))
    (hp : post (client.account letters) progress) : Does role origin post (client, progress) :=
  ⟨letters, .single d, hp⟩

/-- Something was done before. -/
theorem Does.after {middle : Account} (d : Deeds role origin middle) (h : Does role middle post step) :
    Does role origin post step := by
  obtain ⟨letters, d', hp⟩ := h
  exact ⟨letters, Relation.ReflTransGen.trans d d', hp⟩

/-- One step and then another. -/
theorem Does.andThen {next : Client (σ × List Exchange) × Progress ψ β} (ho : origin.Coherent)
    (h : Does role origin post step)
    (hn : ∀ letters, (step.1.account letters).Coherent → Since role origin (step.1.account letters) →
      post (step.1.account letters) step.2 → Does role (step.1.account letters) post' next) :
    Does role origin post' next := by
  obtain ⟨letters, d, hp⟩ := h
  obtain ⟨hs, hc⟩ := d.since_coherent ho
  exact (hn letters hc hs hp).after d

theorem Does.weaken {weaker : Account → Progress φ α → Prop} (h : Does role origin post step)
    (hw : ∀ account, post account step.2 → weaker account step.2) : Does role origin weaker step := by
  obtain ⟨letters, d, hp⟩ := h
  exact ⟨letters, d, hw _ hp⟩

/-- The phase and what is given back may be put in other words. -/
theorem Does.translate {f : φ → ψ} {g : α → β} (h : Does role origin post step)
    (hw : ∀ account phase, step.2 = .waits phase → post account (.waits phase) → post' account (.waits (f phase)))
    (he : ∀ account outcome, step.2 = .ends outcome → post account (.ends outcome) →
      post' account (.ends (outcome.map g))) :
    Does role origin post' (step.1, (step.2.inPhase f).map g) := by
  obtain ⟨letters, d, hp⟩ := h
  obtain ⟨client, phase | outcome⟩ := step
  · exact ⟨letters, d, hw _ phase rfl hp⟩
  · exact ⟨letters, d, he _ outcome rfl hp⟩

end Rules

/-! ## What does not show in the account -/

/-- The account of two clients is the same. -/
def Accords (before after : Client (σ × List Exchange)) : Prop :=
  ∀ letters, after.account letters = before.account letters

section Accords

variable {role : Role} {origin : Account} {post : Account → Progress φ α → Prop}
  {step : Client (σ × List Exchange) × Progress φ α} {first second third : Client (σ × List Exchange)}
  {letters : List Letter}

theorem Accords.refl (client : Client (σ × List Exchange)) : Accords client client := fun _ => rfl

theorem Accords.trans (h : Accords first second) (h' : Accords second third) : Accords first third :=
  fun letters => (h' letters).trans (h letters)

theorem accords_log (client : Client (σ × List Exchange)) (entry : LogEntry) : Accords client (client.log entry) :=
  fun letters => client.account_log letters entry

theorem accords_logAll (client : Client (σ × List Exchange)) (entries : Log) :
    Accords client (client.logAll entries) := fun letters => client.account_logAll letters entries

/-- Something that does not show comes before a step. -/
theorem Accords.does (ha : Accords first second) (h : Does role (second.account letters) post step) :
    Does role (first.account letters) post step := by
  rw [ha] at h
  exact h

/-- Something that does not show comes after a step. -/
theorem Does.follow {next : Client (σ × List Exchange) × Progress ψ β} (h : Does role origin post step)
    (ha : Accords step.1 next.1) : Does role origin Anything next := by
  obtain ⟨letters, d, -⟩ := h
  refine ⟨letters, ?_, trivial⟩
  rw [ha]
  exact d

/-- A step that does not show. -/
theorem Accords.anything (ha : Accords first step.1) : Does role (first.account letters) Anything step :=
  does_nothing (ha letters) trivial

end Accords

/-! ## Calling the process layer -/

section Calls

variable {role : Role} (client : Client (σ × List Exchange)) (setup : Setup σ) (letters : List Letter)

/-- The reply of a step is put on record. -/
theorem account_afterCall {call : LayerCall} (step : LayerStep σ call.Answer) :
    (client.afterCall (step.recorded client.layer.2)).1.account letters =
      { client.account letters with record := client.layer.2 ++ [⟨call, step.reply⟩] } := by
  unfold afterCall LayerStep.recorded
  cases step.reply <;> rfl

/-- A step that ends well was replied to so. -/
theorem reply_of_ends {call : LayerCall} {step : LayerStep σ call.Answer} {answer : call.Answer}
    (h : (client.afterCall (step.recorded client.layer.2)).2 = .ends (.ok answer)) : step.reply = .returns answer := by
  unfold afterCall LayerStep.recorded at h
  cases hr : step.reply <;> simp only [hr] at h <;> cases h
  rfl

/-- The layer is called, and not to hand something over. -/
theorem does_ask (call : LayerCall) (silent : call.sent? = none)
    (stops : ∀ id, call = .stop id → (client.account letters).MayStop role id) :
    Does role (client.account letters) (fun account _ => account.letters = letters ∧ call ∈ account.calls)
      (client.ask setup.recorded call) := by
  have ha := account_afterCall (client.note (.called call)) letters
    (setup.layer.call client.layer.1 client.tickets call)
  rw [account_note_called] at ha
  have hd : Deed role (client.account letters) _ :=
    .call ⟨call, (setup.layer.call client.layer.1 client.tickets call).reply⟩ silent stops
  refine ⟨letters, .single (Eq.subst (motive := Deed role _) ha.symm hd), rfl, ?_⟩
  refine (congrArg Account.calls ha).symm ▸ ?_
  exact List.mem_append_right _ (List.mem_singleton_self _)

/-- A call goes on; if it ends well, that is on record. -/
theorem does_goOn (cancelled : Bool) (call : LayerCall) :
    Does role (client.account letters)
      (fun account progress => account.letters = letters ∧
        ∀ answer, progress = .ends (.ok answer) → ⟨call, .returns answer⟩ ∈ account.record)
      (client.goOn setup.recorded cancelled call) := by
  unfold goOn
  split
  · exact does_nothing rfl ⟨rfl, nofun⟩
  · have ha := client.account_afterCall letters (setup.layer.resume client.layer.1 client.tickets call)
    refine ⟨letters, .single (Eq.subst (motive := Deed role _) ha.symm (.goOn _)), rfl, fun answer he => ?_⟩
    rw [← client.reply_of_ends he]
    refine (congrArg Account.record ha).symm ▸ ?_
    exact List.mem_append_right _ (List.mem_singleton_self _)

/-- A letter is handed over; if that ends well, it is on record. -/
theorem account_ask_letter (letter : Letter) :
    ∃ reply, (client.ask setup.recorded letter.call).1.account (letters ++ [letter]) =
        (client.account letters).handOver letter reply ∧
      ((client.ask setup.recorded letter.call).2 = .ends (.ok ()) → reply = .returns ()) := by
  have ha := account_afterCall (client.note (.called letter.call)) (letters ++ [letter])
    (setup.layer.call client.layer.1 client.tickets letter.call)
  rw [account_note_called] at ha
  exact ⟨(setup.layer.call client.layer.1 client.tickets letter.call).reply, ha,
    fun he => (client.note (.called letter.call)).reply_of_ends he⟩

end Calls

/-! ## Notifications -/

section Notices

variable {role : Role} (client : Client (σ × List Exchange)) (setup : Setup σ) (letters : List Letter)

theorem afterNotice_fst (message : Outgoing) (sent : Progress Nat Unit) :
    (client.afterNotice message sent).1 = client := by
  unfold afterNotice
  split <;> rfl

/-- A notification is done with once it was handed over. -/
theorem posting_afterNotice (message : Outgoing) {letter : Letter} {account : Account} {sent : Progress Nat Unit}
    (hm : message.Carries letter) (hd : sent = .ends (.ok ()) → account.Delivered letter) :
    Posting letter account (client.afterNotice message sent).2 := by
  unfold afterNotice
  split
  · exact ⟨fun phase hp => by cases hp; exact hm, nofun⟩
  · exact ⟨nofun, fun _ => hd rfl⟩
  · exact ⟨nofun, nofun⟩
  · exact ⟨nofun, nofun⟩

/-- A notification is sent. -/
theorem does_notify {letter : Letter} {session method : String} {params : Json} (hs : session = letter.session)
    (ht : (Message.notice method params).print = letter.text)
    (permits : (client.account letters).Permits role letter) :
    Does role (client.account letters)
      (fun account progress => account.letters = letters ++ [letter] ∧ Posting letter account progress)
      (client.notify setup.recorded session method params) := by
  obtain ⟨reply, ha, he⟩ := client.account_ask_letter setup letters letter
  subst hs
  unfold notify
  rw [ht]
  have hclient := afterNotice_fst (client.ask setup.recorded letter.call).1 ⟨letter.session, method, letter.text⟩
    (client.ask setup.recorded letter.call).2
  refine ⟨letters ++ [letter], ?_, rfl, posting_afterNotice _ ⟨letter.session, method, letter.text⟩ ⟨rfl, rfl⟩ ?_⟩
  · refine Eq.subst (motive := fun client => Deeds role _ (account client _)) hclient.symm ?_
    rw [ha]
    exact .single (.hand reply permits)
  · intro hends
    refine Eq.subst (motive := fun client => Account.Delivered (account client _) letter) hclient.symm ?_
    rw [ha, he hends]
    exact List.mem_append_right _ (List.mem_singleton_self _)

theorem does_notifyIfPrintable {letter : Letter} {session method : String} {params : Json}
    (hs : session = letter.session) (ht : (Message.notice method params).print = letter.text)
    (permits : (client.account letters).Permits role letter) :
    Does role (client.account letters) Anything (client.notifyIfPrintable setup.recorded session method params) := by
  unfold notifyIfPrintable
  split
  · exact (client.does_notify setup letters hs ht permits).weaken fun _ _ => trivial
  · exact does_nothing rfl trivial

/-- A notification goes on. -/
theorem does_resumeNotice (ho : (client.account letters).Coherent) (cancelled : Bool) (phase : NoticePhase) :
    Does role (client.account letters)
      (fun account progress => account.letters = letters ∧
        ∀ letter, phase.message.Carries letter → Posting letter account progress)
      (client.resumeNotice setup.recorded cancelled phase) := by
  refine (client.does_goOn setup letters cancelled phase.message.call).andThen ho fun letters' _ _ ⟨hl, hr⟩ => ?_
  have hclient := afterNotice_fst (client.goOn setup.recorded cancelled phase.message.call).1 phase.message
    (client.goOn setup.recorded cancelled phase.message.call).2
  refine ⟨letters', Eq.subst (motive := fun client => Deeds role _ (account client _)) hclient.symm .refl, ?_, ?_⟩
  · exact Eq.subst (motive := fun client => (account client letters').letters = letters) hclient.symm hl
  · intro letter hm
    refine posting_afterNotice _ _ hm ?_
    refine Eq.subst (motive := fun client => _ → Account.Delivered (account client letters') letter) hclient.symm ?_
    obtain ⟨ticket, session, method, text⟩ := phase
    obtain ⟨hs, ht⟩ := hm
    simp only at hs ht
    subst hs ht
    exact hr ()

end Notices

/-! ## Requests -/

section Requests

variable {role : Role} (client : Client (σ × List Exchange)) (setup : Setup σ) (letters : List Letter)

/-- A request waits for its promise, unless it is settled. -/
theorem awaiting_awaitPromise {index : Nat} {promise : Promise}
    (hp : client.pending.promises[index]? = some promise) :
    Awaiting promise.request (client.account letters) (client.awaitPromise index).2 := by
  unfold awaitPromise
  split
  · next outcome ho =>
    refine ⟨nofun, fun result hresult => ⟨index, ?_⟩⟩
    cases hresult
    obtain ⟨promise', hp', ho⟩ := Pending.outcome?_eq_some_iff.1 ho
    cases hp.symm.trans hp'
    rw [account, hp, ← ho]
  · refine ⟨fun phase hphase => ?_, fun result hresult => ?_⟩
    · cases hphase
      exact ⟨promise, rfl, hp⟩
    · cases hresult

theorem does_awaitPromise (role : Role) (index : Nat) :
    Does role (client.account letters)
      (fun account progress => account.letters = letters ∧
        ∀ promise, client.pending.promises[index]? = some promise → Awaiting promise.request account progress)
      (client.awaitPromise index) := by
  have hclient : (client.awaitPromise index).1 = client := by
    unfold awaitPromise
    split <;> rfl
  refine ⟨letters, ?_, rfl, fun promise hp => ?_⟩
  · rw [hclient]
    exact .refl
  · rw [hclient]
    exact client.awaiting_awaitPromise letters hp

/-- A request was handed over, or not. -/
theorem does_afterSend (role : Role) (ho : (client.account letters).Coherent) (id : RequestId) (index : Nat)
    (message : Outgoing) (sent : Progress Nat Unit) :
    Does role (client.account letters)
      (fun account progress => account.letters = letters ∧
        ∀ promise, client.pending.promises[index]? = some promise → Awaiting promise.request account progress)
      (client.afterSend id index message sent) := by
  unfold afterSend
  split
  · refine does_nothing rfl ⟨rfl, fun promise hp => ⟨fun phase hphase => ?_, nofun⟩⟩
    cases hphase
    exact ⟨promise, rfl, hp⟩
  · exact client.does_awaitPromise letters role index
  · exact does_nothing rfl ⟨rfl, fun _ _ => ⟨nofun, nofun⟩⟩
  · next cause _ =>
    -- A request that could not be handed over ends through its promise.
    have hm : Pending.Moves role.answers client.pending (client.pending.reject id (message.failed cause)).1 :=
      ho.numbered.moves_reject id _
    have hd := does_awaitPromise ((client.setPending (client.pending.reject id (message.failed cause)).1).logAll
      (client.pending.reject id (message.failed cause)).2.2) letters role index
    rw [account_logAll, account_setPending] at hd
    refine (hd.weaken fun account ⟨hl, ha⟩ => ⟨hl, fun promise hp => ?_⟩).after (.single (.pending hm))
    obtain ⟨later, hlater, hr, -⟩ := hm.promise index promise hp
    rw [← hr]
    refine ha later ?_
    rw [logAll_eq]
    exact hlater

/-- A request is registered and handed over, as one letter. -/
theorem does_request {origin : Account} {letter : RequestId → Letter} {session method : String} {params : Json}
    (delay : Option Binary64) (ho : origin.Coherent) (hreg : client.sessions.has session = true)
    (hn : client.pending.Numbered) (hs : ∀ id, (letter id).session = session)
    (ht : ∀ id, (letter id).text = (Message.request id.toJson method params).print)
    (hd : ∀ id pending reply, Pending.Moves role.answers client.pending pending →
      Deeds role origin ({ client.account letters with pending }.handOver (letter id) reply)) :
    Does role origin
      (fun account progress => ∃ id, account.letters = letters ++ [letter id] ∧ Awaiting id account progress)
      (client.request setup.recorded session method params delay) := by
  have hsession := hs client.pending.nextId.2
  subst hsession
  let entered := client.pending.nextId.1.enter client.pending.nextId.2 method delay
    (some (letter client.pending.nextId.2).session)
  let client' : Client (σ × List Exchange) := { client with pending := entered }
  obtain ⟨reply, ha, -⟩ := client'.account_ask_letter setup letters (letter client.pending.nextId.2)
  have hdeeds := hd client.pending.nextId.2 entered reply (hn.enter method delay _)
  have hcoherent := (hdeeds.since_coherent ho).2
  rw [show { client.account letters with pending := entered } = client'.account letters from rfl, ← ha]
    at hdeeds hcoherent
  have hpromise : (client'.ask setup.recorded (letter client.pending.nextId.2).call).1.pending.promises[
      client.pending.promises.length]? = some ⟨client.pending.nextId.2, none⟩ := by
    have hpending := congrArg Account.pending ha
    change (client'.ask setup.recorded (letter client.pending.nextId.2).call).1.pending = entered at hpending
    rw [hpending]
    exact Pending.getElem?_enter _ _ _ _ _
  unfold request
  rw [hreg, if_neg (by decide)]
  dsimp only
  rw [hn.register_eq method delay]
  dsimp only
  rw [← ht]
  have hsend := does_afterSend _ _ role hcoherent client.pending.nextId.2 client.pending.promises.length
    ⟨(letter client.pending.nextId.2).session, method, (letter client.pending.nextId.2).text⟩
    (client'.ask setup.recorded (letter client.pending.nextId.2).call).2
  exact (hsend.weaken fun account ⟨hl, ha⟩ => ⟨client.pending.nextId.2, hl, ha _ hpromise⟩).after hdeeds

/-- A request goes on. -/
theorem does_resumeRequest (ho : (client.account letters).Coherent) (cancelled : Bool) (phase : RequestPhase) :
    Does role (client.account letters)
      (fun account progress => account.letters = letters ∧
        ∀ id, (client.account letters).Awaits id phase → Awaiting id account progress)
      (client.resumeRequest setup.recorded cancelled phase) := by
  cases phase with
  | sending ticket key index message =>
    refine (client.does_goOn setup letters cancelled message.call).andThen ho fun letters' hc hs ⟨hl, _⟩ => ?_
    have hd := does_afterSend _ letters' role hc key index message
      (client.goOn setup.recorded cancelled message.call).2
    refine hd.weaken fun account ⟨hl', ha⟩ => ⟨hl'.trans hl, fun id hawaits => ?_⟩
    obtain ⟨promise, rfl, hpromise⟩ := hs.awaits hawaits
    exact ha promise hpromise
  | waiting index =>
    unfold resumeRequest
    dsimp only
    split
    · exact does_nothing rfl ⟨rfl, fun _ _ => ⟨nofun, nofun⟩⟩
    · refine (client.does_awaitPromise letters role index).weaken fun account ⟨hl, ha⟩ => ⟨hl, fun id hawaits => ?_⟩
      obtain ⟨promise, rfl, hpromise⟩ := hawaits
      exact ha promise hpromise

end Requests

end Client

end LanguageSessions
