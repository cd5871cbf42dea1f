import LanguageSessions.Proofs.Frame.Blocks
import LanguageSessions.Proofs.Json.RoundTrip
import LanguageSessions.Proofs.Message.Kinds

/-!
# Messages on the wire

An object is written as a text of ASCII, the text travels in a frame, and what is read at the other end is what the
members of the object make of it, with the values that they have (`message_survives_the_wire`). This holds of every
object that can be written, and so of the envelopes of requests and notifications.
-/

namespace LanguageSessions.Message

open Text

variable {members : Members}

theorem decode_print (h : Json.Writable (.object members)) : decode (Json.print (.object members)) = ofMembers members := by
  rw [decode, Json.parse_print h]
  rfl

theorem print_ne_nil (value : Json) : value.print.toList ≠ [] := by
  obtain ⟨c, tail, hv, -⟩ := value.exists_head
  rw [Json.print, String.toList_ofList, hv]
  exact List.cons_ne_nil c tail

theorem isNotification_request {id params : Json} {method : String} (h : .object members = request id method params) :
    IsNotification members method params id := by
  cases h
  exact ⟨rfl, rfl, rfl⟩

theorem isNotification_notice {params : Json} {method : String} (h : .object members = notice method params) :
    IsNotification members method params .null := by
  cases h
  exact ⟨rfl, rfl, rfl⟩

/-- **A message loses nothing on the wire.** The text of an object is ASCII; it is taken from its frame whatever comes
behind it, if it is not so long that its length has too many digits; and it is read as the notification or the response
that the members of the object make it, with their values, or refused for the reason that they give. A request is read
as a notification with its identifier, and a notice as one without. -/
theorem message_survives_the_wire (h : Json.Writable (.object members)) (rest : List UInt8) :
    let text := Json.print (.object members)
    (∀ c ∈ text.toList, c.toNat < 0x80) ∧
      ((natDigits (Utf8.encode text.toList).length).length ≤ Numeral.maxDigits →
        Frame.read (Frame.encode text.toList ++ rest) = (some text.toList, rest)) ∧
      (∀ method params id,
        decode text = .ok (.notification method params id) ↔ IsNotification members method params id) ∧
      (∀ id result error, decode text = .ok (.response id result error) ↔ IsResponse members id result error) ∧
      (∀ reason, decode text = .error reason ↔ IsMalformed members reason) ∧
      (∀ id method params, .object members = request id method params →
        decode text = .ok (.notification method params id)) ∧
      ∀ method params, .object members = notice method params →
        decode text = .ok (.notification method params .null) := by
  intro text
  have hdecode : decode text = ofMembers members := decode_print h
  rw [hdecode]
  refine ⟨fun c hc => ?_, fun hl => ?_, fun method params id => ?_, fun id result error => ?_, fun reason => ?_,
    fun id method params hm => ?_, fun method params hm => ?_⟩
  · exact Json.ascii_write _ c (String.toList_ofList ▸ hc)
  · exact Frame.read_encode_append (print_ne_nil _) hl rest
  · exact ofMembers_eq_notification_iff
  · exact ofMembers_eq_response_iff
  · exact ofMembers_eq_error_iff
  · exact ofMembers_eq_notification_iff.2 (isNotification_request hm)
  · exact ofMembers_eq_notification_iff.2 (isNotification_notice hm)

/-- A request with a number below one, a character of two units and what is not a number keeps all of them. -/
theorem request_with_rare_values_survives :
    let params : Json := .array [.float (Binary64.ofRatio true 1 3), .string "😀", .float .nan, .int (-5)]
    Json.Writable (request (.int 1) "m" params) ∧
      decode (request (.int 1) "m" params).print = .ok (.notification "m" params (.int 1)) := by
  intro params
  have hparams : Json.Writable params := by
    refine .array _ fun item hi => ?_
    simp only [List.mem_cons, List.not_mem_nil, or_false] at hi
    rcases hi with rfl | rfl | rfl | rfl
    · exact .float _
    · exact .string _
    · exact .float _
    · exact .int _ (by decide +kernel)
  have hrequest : Json.Writable (request (.int 1) "m" params) := by
    refine .object _ (by decide) fun member hm => ?_
    simp only [List.mem_cons, List.not_mem_nil, or_false] at hm
    rcases hm with rfl | rfl | rfl | rfl
    · exact .string _
    · exact .int _ (by decide +kernel)
    · exact .string _
    · exact hparams
  exact ⟨hrequest, (message_survives_the_wire hrequest []).2.2.2.2.2.1 _ _ _ rfl⟩

end LanguageSessions.Message
