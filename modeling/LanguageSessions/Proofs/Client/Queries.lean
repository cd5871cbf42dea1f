import LanguageSessions.Proofs.Client.Pledges
import LanguageSessions.Proofs.Location

/-!
# What queries give back

A request comes back with a result, with a fault that a query answers nothing for, or because it was cancelled
(`Replies`). So a query about a place gives back what was read of a result, or nothing; it fails only where it was
cancelled, or where an infinite number stands in the result (`Query.Comes`).
-/

namespace LanguageSessions

/-! ## Queries about places -/

/-- What a query about a place may come to, where some results were brought. -/
inductive Query.Comes (query : Query) (brought : Json → Prop) : Except Fault Answer → Prop where
  /-- A result was read. -/
  | converted {result : Json} {answer : Answer} (came : brought result) (read : query.read result = .ok answer) :
      Comes query brought (.ok answer)
  | nothing : Comes query brought (.ok query.nothing)
  | cancelled : Comes query brought (.error .cancelled)
  /-- An infinite number stands in a result. -/
  | infinite {result : Json} (came : brought result) (infinite : result.HoldsInfinite) :
      Comes query brought (.error (.conversion .unbounded))

/-- A session is asked about a place. -/
inductive Operation.Asks : Operation → Query → Prop where
  | hover (session path : String) (position : Position) : Asks (.hover session path position) .hover
  | definition (session path : String) (position : Position) : Asks (.definition session path position) .definition
  | references (session path : String) (position : Position) (withDeclaration : Bool) :
      Asks (.references session path position withDeclaration) .references

namespace Query

variable {query : Query} {brought more : Json → Prop} {outcome : Except Fault Answer}

theorem Comes.weaken (h : query.Comes brought outcome) (hb : ∀ result, brought result → more result) :
    query.Comes more outcome := by
  cases h with
  | converted came read => exact .converted (hb _ came) read
  | nothing => exact .nothing
  | cancelled => exact .cancelled
  | infinite came infinite => exact .infinite (hb _ came) infinite

/-- A query that asks a session is answered as it was read, and is no query for symbols. -/
theorem of_asks {operation : Operation} (h : operation.Asks query) : query.plural = none ∧ query ≠ .symbols := by
  cases h <;> exact ⟨rfl, nofun⟩

/-- Reading fails for a reason of its own. -/
theorem read_eq_error {result : Json} {fault : Fault} (h : query.read result = .error fault) :
    ∃ e, fault = .conversion e ∧ (e = .unbounded → result.HoldsInfinite) := by
  have hplaces : ∀ {read : Json → Except ConversionError (Option (List Location))},
      Json.Blames result (read result) → placesOf read result = .error fault →
        ∃ e, fault = .conversion e ∧ (e = .unbounded → result.HoldsInfinite) := by
    intro read hblames hfail
    unfold placesOf at hfail
    split at hfail
    · cases hfail
    · split at hfail
      · cases hfail
      · next e he =>
        cases hfail
        refine ⟨e, rfl, ?_⟩
        rintro rfl
        exact hblames he
  cases query with
  | hover =>
    unfold read at h
    dsimp only at h
    split at h
    · cases h
    · split at h
      · cases h
      · next e he =>
        cases h
        refine ⟨e, rfl, ?_⟩
        rintro rfl
        exact blames_hover he
  | definition | lookupDefinition => exact hplaces blames_definition h
  | references | lookupReferences => exact hplaces (blames_list.map some) h
  | symbols => cases h

/-- A conversion that fails is answered with nothing, unless it fails for an infinite number. -/
theorem absorbs_conversion (h : query ≠ .symbols) {e : ConversionError} (he : e ≠ .unbounded) :
    query.absorbs (.conversion e) = true := by
  cases query with
  | symbols => exact absurd rfl h
  | _ => cases e <;> first | rfl | exact absurd rfl he

theorem absorbs_of_isQueryFault (h : query ≠ .symbols) {fault : Fault} (hf : fault.isQueryFault = true) :
    query.absorbs fault = true := by
  cases query with
  | symbols => exact absurd rfl h
  | _ => exact hf

/-- **A query about a place fails only where it was cancelled or an infinite number stands in the result.** -/
theorem comes_conclude (h : query ≠ .symbols) {asked : Outcome}
    (fair : ∀ fault, asked = .error fault → fault.isQueryFault = true ∨ fault = .cancelled) :
    query.Comes (fun result => asked = .ok result) (query.conclude asked) := by
  unfold conclude
  cases asked with
  | error fault =>
    change query.Comes _ (if query.absorbs fault then .ok query.nothing else .error fault)
    rcases fair fault rfl with hfault | rfl
    · rw [if_pos (absorbs_of_isQueryFault h hfault)]
      exact .nothing
    · split
      · exact .nothing
      · exact .cancelled
  | ok result =>
    cases hread : query.read result with
    | ok answer =>
      rw [show (Except.ok result : Outcome).bind query.read = _ from hread]
      exact .converted rfl hread
    | error fault =>
      obtain ⟨e, rfl, hinfinite⟩ := read_eq_error hread
      rw [show (Except.ok result : Outcome).bind query.read = _ from hread]
      dsimp only
      by_cases he : e = .unbounded
      · subst he
        split
        · exact .nothing
        · exact .infinite rfl (hinfinite rfl)
      · rw [if_pos (absorbs_conversion h he)]
        exact .nothing

end Query

/-! ## Requests -/

/-- A fault that ends a request is one that queries answer nothing for. -/
theorem Fault.isQueryFault_of_endsRequest {fault : Fault} (h : fault.endsRequest = true) : fault.isQueryFault = true := by
  cases fault <;> first | rfl | cases h

namespace Client

variable {σ : Type}

/-- A request that ends has a result that its promise has, or a fault that queries answer nothing for, or it was
cancelled. -/
def Replies (client : Client σ) (progress : Progress RequestPhase Json) : Prop :=
  ∀ outcome, progress = .ends outcome →
    (∀ fault, outcome = .error fault → fault.isQueryFault = true ∨ fault = .cancelled) ∧
      ∀ result, outcome = .ok result → ∃ index, client.pending.outcome? index = some (.ok result)

section Requests

variable {client : Client σ}

theorem replies_waits (phase : RequestPhase) : client.Replies (.waits phase) := nofun

theorem replies_fault {fault : Fault} (h : fault.isQueryFault = true ∨ fault = .cancelled) :
    client.Replies (.ends (.error fault)) := by
  rintro _ ⟨⟩
  refine ⟨?_, nofun⟩
  rintro _ ⟨⟩
  exact h

/-- A promise that is waited for has a result, or a fault that ends requests. -/
theorem replies_awaitPromise {promise : Nat} (tended : (client.awaitPromise promise).1.pending.Tended) :
    (client.awaitPromise promise).1.Replies (client.awaitPromise promise).2 := by
  revert tended
  unfold awaitPromise
  split
  · next outcome houtcome =>
    rintro tended _ ⟨⟩
    refine ⟨?_, ?_⟩
    · rintro fault rfl
      exact (tended.ended promise fault houtcome).imp_left Fault.isQueryFault_of_endsRequest
    · rintro result rfl
      exact ⟨promise, houtcome⟩
  · exact fun _ => replies_waits _

theorem replies_afterSend {id : RequestId} {promise : Nat} {message : Outgoing} {sent : Progress Nat Unit}
    (tended : (client.afterSend id promise message sent).1.pending.Tended) :
    (client.afterSend id promise message sent).1.Replies (client.afterSend id promise message sent).2 := by
  revert tended
  unfold afterSend
  split
  · exact fun _ => replies_waits _
  · exact fun tended => replies_awaitPromise tended
  · exact fun _ => replies_fault (Or.inr rfl)
  · exact fun tended => replies_awaitPromise tended

theorem isQueryFault_of_register {pending : Pending} {request : RequestId} {method : String} {delay : Option Binary64}
    {session : Option String} {fault : Fault} (h : pending.register request method delay session = .error fault) :
    fault.isQueryFault = true := by
  unfold Pending.register at h
  split at h <;> cases h
  rfl

variable (setup : Setup σ)

theorem replies_request (session method : String) (params : Json) (delay : Option Binary64)
    (tended : (client.request setup session method params delay).1.pending.Tended) :
    (client.request setup session method params delay).1.Replies
      (client.request setup session method params delay).2 := by
  revert tended
  unfold request
  split
  · have hunknown : (Fault.notInitialized session).isQueryFault = true := rfl
    exact fun _ => replies_fault (Or.inl hunknown)
  · dsimp only
    split
    · next heq => exact fun _ => replies_fault (Or.inl (isQueryFault_of_register heq))
    · exact fun tended => replies_afterSend tended

theorem replies_requestIfPrintable (session method : String) (params : Json) (delay : Option Binary64)
    (tended : (client.requestIfPrintable setup session method params delay).1.pending.Tended) :
    (client.requestIfPrintable setup session method params delay).1.Replies
      (client.requestIfPrintable setup session method params delay).2 := by
  revert tended
  unfold requestIfPrintable
  split
  · have hlong : Fault.longInteger.isQueryFault = true := rfl
    exact fun _ => replies_fault (Or.inl hlong)
  · exact fun tended => replies_request setup session method params delay tended

theorem replies_resumeRequest (cancelled : Bool) (phase : RequestPhase)
    (tended : (client.resumeRequest setup cancelled phase).1.pending.Tended) :
    (client.resumeRequest setup cancelled phase).1.Replies (client.resumeRequest setup cancelled phase).2 := by
  cases phase with
  | sending ticket id promise message => exact replies_afterSend tended
  | waiting promise =>
    revert tended
    unfold resumeRequest
    dsimp only
    split
    · exact fun _ => replies_fault (Or.inr rfl)
    · exact fun tended => replies_awaitPromise tended

end Requests

/-! ## Asking -/

/-- A query waits as itself, or comes to what it may come to. -/
def Queries (query : Query) (client : Client σ) (progress : Progress QueryPhase Answer) : Prop :=
  (∀ phase, progress = .waits phase → phase.query = query) ∧
    ∀ outcome, progress = .ends outcome →
      query.Comes (fun result => ∃ index, client.pending.outcome? index = some (.ok result)) outcome

section Asking

variable {query : Query} {client : Client σ}

theorem pending_afterQuery (query : Query) (asked : Progress RequestPhase Json) :
    (client.afterQuery query asked).1.pending = client.pending := by
  unfold afterQuery
  split
  · rfl
  · split
    · rfl
    · exact pending_logAll _ _

theorem queries_afterQuery (plain : query.plural = none) (places : query ≠ .symbols)
    {asked : Progress RequestPhase Json} (replies : client.Replies asked) :
    Queries query (client.afterQuery query asked).1 (client.afterQuery query asked).2 := by
  cases asked with
  | waits phase =>
    refine ⟨?_, nofun⟩
    rintro _ ⟨⟩
    rfl
  | ends outcome =>
    obtain ⟨fair, brought⟩ := replies outcome rfl
    have hcomes := (Query.comes_conclude places fair).weaken brought
    unfold afterQuery
    dsimp only
    cases hconclude : query.conclude outcome with
    | error fault =>
      rw [hconclude] at hcomes
      refine ⟨nofun, ?_⟩
      rintro _ ⟨⟩
      exact hcomes
    | ok answer =>
      rw [hconclude] at hcomes
      have hfinish : query.finish answer = (answer, []) := by
        unfold Query.finish
        rw [plain]
      dsimp only
      rw [hfinish]
      refine ⟨nofun, ?_⟩
      rintro _ ⟨⟩
      exact hcomes

variable (setup : Setup σ)

theorem queries_query (plain : query.plural = none) (places : query ≠ .symbols) (id method : String) (params : Members)
    (tended : (client.query setup query id method params).1.pending.Tended) :
    Queries query (client.query setup query id method params).1 (client.query setup query id method params).2 := by
  revert tended
  unfold Client.query
  dsimp only
  rw [pending_afterQuery]
  exact fun tended => queries_afterQuery plain places (replies_requestIfPrintable setup id method _ none tended)

/-- A session that is asked about a place is asked a query. -/
theorem beginOperation_of_asks (client : Client σ) {operation : Operation} (asks : operation.Asks query) :
    ∃ step, client.beginOperation setup operation = queried step ∧
      (step.1.pending.Tended → Queries query step.1 step.2) := by
  obtain ⟨plain, places⟩ := Query.of_asks asks
  cases asks with
  | hover | definition | references => exact ⟨_, rfl, queries_query setup plain places _ _ _⟩

theorem queries_resumeQuery (client : Client σ) (cancelled : Bool) {phase : QueryPhase} {operation : Operation}
    (asks : operation.Asks phase.query) (tended : (client.resumeQuery setup cancelled phase).1.pending.Tended) :
    Queries phase.query (client.resumeQuery setup cancelled phase).1 (client.resumeQuery setup cancelled phase).2 := by
  obtain ⟨plain, places⟩ := Query.of_asks asks
  revert tended
  unfold resumeQuery
  dsimp only
  rw [pending_afterQuery]
  exact fun tended => queries_afterQuery plain places (replies_resumeRequest setup cancelled phase.request tended)

end Asking

end Client

end LanguageSessions
