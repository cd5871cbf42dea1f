import LanguageSessions.Client.Inbound
import LanguageSessions.Proofs.Json.LongIntegers
import LanguageSessions.Proofs.Message.Kinds

/-!
# Which messages are taken in

Every message is taken in, whatever it says and whoever fails of those who listen, unless an integer in it is too long
to be read: then it is neither a message nor malformed, and nobody catches the fault (`hear?_eq_none_iff`). It takes a
run of digits for this that is too long; a text without one is taken in (`hears_without_long_runs`). One such run alone
is enough (`long_integer_is_not_heard`).
-/

namespace LanguageSessions

namespace Message

variable {text : String}

/-- A text is refused for an integer that is too long only where reading it stops there. -/
theorem decode_eq_longInteger_iff : decode text = .error .longInteger ↔ Json.parse text = .error .longInteger := by
  unfold decode
  cases Json.parse text with
  | error e =>
    cases e with
    | notJson => exact ⟨nofun, nofun⟩
    | longInteger => exact ⟨fun _ => rfl, fun _ => rfl⟩
  | ok value =>
    refine ⟨fun h => ?_, nofun⟩
    cases value with
    | object members => exact absurd h (ofMembers_ne_longInteger members)
    | _ => cases h

/-- Every other reason makes a text malformed: it is no JSON, or JSON that is no message. -/
theorem fault_of_ne_longInteger {e : DecodeError} (raw : String) (h : e ≠ .longInteger) :
    e.fault raw = .notJson raw ∨ e.fault raw = .malformed raw e.reason := by
  cases e with
  | notJson => exact Or.inl rfl
  | longInteger => exact absurd rfl h
  | notObject | methodKind | idKind | errorKind | shapeless => exact Or.inr rfl

end Message

namespace Client

variable {σ : Type}

/-- A message is taken in unless it is refused for an integer that is too long. -/
theorem hear?_eq_none_iff (client : Client σ) (session text : String) :
    client.hear? session text = none ↔ Message.decode text = .error .longInteger := by
  unfold hear?
  split <;> simp_all

/-- **A text without a run of digits that is too long is taken in.** It is read as a response or as a notification, or
it is malformed, for the reason that is reported. -/
theorem hears_without_long_runs (client : Client σ) (session : String) {text : String}
    (short : ¬ Json.HasLongRun text.toList) :
    (∃ later, client.hear? session text = some later) ∧
      ((∃ id result error, Message.decode text = .ok (.response id result error)) ∨
        (∃ method params id, Message.decode text = .ok (.notification method params id)) ∨
        ∃ e, Message.decode text = .error e ∧
          (e.fault text = .notJson text ∨ e.fault text = .malformed text e.reason)) := by
  have hread : Message.decode text ≠ .error .longInteger := fun h =>
    short (Json.hasLongRun_of_longInteger (Message.decode_eq_longInteger_iff.1 h))
  refine ⟨Option.ne_none_iff_exists'.1 (mt (client.hear?_eq_none_iff session text).1 hread), ?_⟩
  cases hdecode : Message.decode text with
  | ok message =>
    cases message with
    | response id result error => exact Or.inl ⟨id, result, error, rfl⟩
    | notification method params id => exact Or.inr (Or.inl ⟨method, params, id, rfl⟩)
  | error e =>
    refine Or.inr (Or.inr ⟨e, rfl, Message.fault_of_ne_longInteger text ?_⟩)
    rintro rfl
    exact hread hdecode

/-- A run of digits that is too long is not taken in, although it is JSON. -/
theorem long_integer_is_not_heard (client : Client σ) (session : String) {count : Nat}
    (h : Numeral.maxDigits < count) : client.hear? session (String.ofList (List.replicate count '1')) = none :=
  (client.hear?_eq_none_iff session _).2 (Message.decode_eq_longInteger_iff.2 (Json.parse_replicate h))

end Client

end LanguageSessions
