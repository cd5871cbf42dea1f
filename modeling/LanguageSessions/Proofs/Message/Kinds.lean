import LanguageSessions.Message

/-!
# Kinds of messages

The members of an envelope make it a notification (`IsNotification`), a response (`IsResponse`), or neither of the two
for some reason (`IsMalformed`), and never two of these. Reading an envelope tells them apart in this way
(`ofMembers_eq_notification_iff`, `ofMembers_eq_response_iff`, `ofMembers_eq_error_iff`).
-/

namespace LanguageSessions.Message

/-- The members of an envelope make it a notification: they name its method. -/
structure IsNotification (members : Members) (method : String) (params id : Json) : Prop where
  method : members.get? "method" = some (.string method)
  params : params = (members.get? "params").getD .null
  id : id = (members.get? "id").getD .null

/-- The members of an envelope make it a response: they name no method, but the number or the text that identifies a
request, and no error or the members of one. -/
structure IsResponse (members : Members) (id : RequestId) (result : Json) (error : Option Members) : Prop where
  method : (members.get? "method").getD .null = .null
  id : members.get? "id" = some id.toJson
  result : result = (members.get? "result").getD .null
  error : (members.get? "error").getD .null = (error.map Json.object).getD .null

/-- The members of an envelope make it neither, and why. -/
inductive IsMalformed (members : Members) : DecodeError → Prop where
  | methodKind {value : Json} (method : members.get? "method" = some value) (notNull : value ≠ .null)
      (notText : ∀ s, value ≠ .string s) : IsMalformed members .methodKind
  | idKind {value : Json} (method : (members.get? "method").getD .null = .null) (id : members.get? "id" = some value)
      (notNull : value ≠ .null) (notRequest : ∀ request : RequestId, value ≠ request.toJson) :
      IsMalformed members .idKind
  | errorKind {request : RequestId} {value : Json} (method : (members.get? "method").getD .null = .null)
      (id : members.get? "id" = some request.toJson) (error : members.get? "error" = some value)
      (notNull : value ≠ .null) (notObject : ∀ found, value ≠ .object found) : IsMalformed members .errorKind
  | shapeless (method : (members.get? "method").getD .null = .null) (id : (members.get? "id").getD .null = .null) :
      IsMalformed members .shapeless

variable {members : Members} {method : String} {params id result : Json} {request : RequestId} {error : Option Members}

/-- No envelope is both a notification and a response. -/
theorem IsNotification.not_response (h : IsNotification members method params id) :
    ¬ IsResponse members request result error := by
  intro hr
  have hm := hr.method
  rw [h.method, Option.getD_some] at hm
  cases hm

/-- What is read where null stands for what is missing is present, if it is not null. -/
theorem eq_some_of_getD {found : Option Json} {value : Json} (h : found.getD .null = value) (hv : value ≠ .null) :
    found = some value := by
  cases found with
  | none => exact absurd h.symm hv
  | some other => rw [← h, Option.getD_some]

/-- An envelope without a method is read as a response to its request, or refused. -/
theorem responseOf_eq_ok {message : Message} (h : responseOf members request = .ok message) :
    ∃ error, message = .response request ((members.get? "result").getD .null) error ∧
      (members.get? "error").getD .null = (error.map Json.object).getD .null := by
  unfold responseOf at h
  dsimp only at h
  split at h
  · next he =>
    cases h
    exact ⟨none, rfl, he⟩
  · next error he =>
    cases h
    exact ⟨some error, rfl, he⟩
  · cases h

/-- An envelope is read as a notification just where its members make it one. -/
theorem ofMembers_eq_notification_iff :
    ofMembers members = .ok (.notification method params id) ↔ IsNotification members method params id := by
  constructor
  · intro h
    unfold ofMembers at h
    dsimp only at h
    split at h
    · next hm =>
      cases h
      exact ⟨eq_some_of_getD hm nofun, rfl, rfl⟩
    · split at h
      · cases h
      · obtain ⟨error, hmessage, -⟩ := responseOf_eq_ok h
        cases hmessage
      · obtain ⟨error, hmessage, -⟩ := responseOf_eq_ok h
        cases hmessage
      · cases h
    · cases h
  · rintro ⟨hm, rfl, rfl⟩
    unfold ofMembers
    rw [hm]
    rfl

/-- An envelope is read as a response just where its members make it one. -/
theorem ofMembers_eq_response_iff :
    ofMembers members = .ok (.response request result error) ↔ IsResponse members request result error := by
  constructor
  · intro h
    unfold ofMembers at h
    dsimp only at h
    split at h
    · cases h
    · next hm =>
      split at h
      · cases h
      · next n hid =>
        obtain ⟨error, hmessage, herror⟩ := responseOf_eq_ok h
        cases hmessage
        exact ⟨hm, eq_some_of_getD hid nofun, rfl, herror⟩
      · next s hid =>
        obtain ⟨error, hmessage, herror⟩ := responseOf_eq_ok h
        cases hmessage
        exact ⟨hm, eq_some_of_getD hid nofun, rfl, herror⟩
      · cases h
    · cases h
  · rintro ⟨hm, hid, rfl, herror⟩
    have hread : responseOf members request = .ok (.response request ((members.get? "result").getD .null) error) := by
      unfold responseOf
      rw [herror]
      cases error <;> rfl
    unfold ofMembers
    rw [hm, hid]
    cases request <;> exact hread

theorem responseOf_eq_error {reason : DecodeError} (h : responseOf members request = .error reason) :
    reason = .errorKind ∧ ∃ value, members.get? "error" = some value ∧ value ≠ .null ∧ ∀ found, value ≠ .object found := by
  unfold responseOf at h
  dsimp only at h
  split at h
  · cases h
  · cases h
  · next hnull hobject =>
    cases h
    exact ⟨rfl, _, eq_some_of_getD rfl hnull, hnull, hobject⟩

theorem responseOf_of_errorKind {value : Json} (he : members.get? "error" = some value) (hnull : value ≠ .null)
    (hobject : ∀ found, value ≠ .object found) : responseOf members request = .error .errorKind := by
  unfold responseOf
  rw [he, Option.getD_some]
  dsimp only
  split
  · exact absurd rfl hnull
  · exact absurd rfl (hobject _)
  · rfl

/-- An envelope is refused just where its members make it neither, and with the reason for that. -/
theorem ofMembers_eq_error_iff {reason : DecodeError} :
    ofMembers members = .error reason ↔ IsMalformed members reason := by
  constructor
  · intro h
    unfold ofMembers at h
    dsimp only at h
    split at h
    · cases h
    · next hm =>
      split at h
      · next hid =>
        cases h
        exact .shapeless hm hid
      · next n hid =>
        obtain ⟨rfl, value, he, hnull, hobject⟩ := responseOf_eq_error h
        exact .errorKind hm (show _ = some (RequestId.number n).toJson from eq_some_of_getD hid nofun) he hnull hobject
      · next s hid =>
        obtain ⟨rfl, value, he, hnull, hobject⟩ := responseOf_eq_error h
        exact .errorKind hm (show _ = some (RequestId.text s).toJson from eq_some_of_getD hid nofun) he hnull hobject
      · next hnull hnumber htext =>
        cases h
        refine .idKind hm (eq_some_of_getD rfl hnull) hnull fun request => ?_
        cases request with
        | number n => exact hnumber n
        | text s => exact htext s
    · next htext hnull =>
      cases h
      exact .methodKind (eq_some_of_getD rfl hnull) hnull htext
  · intro h
    unfold ofMembers
    cases h with
    | methodKind hm hnull htext =>
      rw [hm, Option.getD_some]
      dsimp only
      split
      · exact absurd rfl (htext _)
      · exact absurd rfl hnull
      · rfl
    | idKind hm hid hnull hrequest =>
      rw [hm, hid, Option.getD_some]
      dsimp only
      split
      · exact absurd rfl hnull
      · exact absurd rfl (hrequest (.number _))
      · exact absurd rfl (hrequest (.text _))
      · rfl
    | @errorKind request _ hm hid he hnull hobject =>
      have hread : ∀ request, responseOf members request = .error .errorKind := fun _ =>
        responseOf_of_errorKind he hnull hobject
      rw [hm, hid]
      cases request <;> exact hread _
    | shapeless hm hid =>
      rw [hm, hid]

/-- Only the text of a message can hold an integer that is too long. -/
theorem ofMembers_ne_longInteger (members : Members) : ofMembers members ≠ .error .longInteger :=
  fun h => nomatch ofMembers_eq_error_iff.1 h

end LanguageSessions.Message
