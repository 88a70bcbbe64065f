/-
**A response is at most three times as long as its request, and a few bytes more.**

What a response carries is a payload that was written again, the message type of the request behind a
few words, or a short text. The payload and the message type are in the bytes of the request.

* `RequestPayload.size`, `Request.size`: the bytes of what a request has in it;
* `Request.size_le_of_decode`: they are among the bytes that it was read off;
* `length_unknownName_le`, `WireFormat.length_name_le`: the names of formats are short;
* `Testee.length_payload_le`: so what a response carries is at most seven thirds of its request and a
  hundred bytes long;
* `Testee.length_handleRaw_le`: and a response is at most three times as long and 128 bytes;
* `Testee.fits_handle`, `Frame.answer_of_decode`: so a request of the default limit has a response that
  can be written and framed;
* `serve_frameTooLarge`: and a service with such a limit refuses no length but one that was announced;
* `Testee.amplification_bounded`: all bounds in one.
-/

import Protobuf.Proofs.Amplification
import Protobuf.Proofs.Arrival
import Protobuf.Proofs.DebugLine
import Protobuf.Proofs.FaultText
import Protobuf.Proofs.RequestPolicy
import Protobuf.Proofs.Rounds

namespace Protobuf

/-! ### What is in the bytes of a request -/

/-- The payload of a value is in the bytes that it was read off. -/
theorem ScalarType.length_payloads_le_of_read (type : ScalarType) {value : type.Value}
    {bytes unread : Bytes} (taken : type.read bytes = .ok value unread) :
    (type.payloads value).flatten.length + unread.length ≤ bytes.length := by
  have framed {payload : Bytes} (announced : Payload.read bytes = .ok payload unread) :
      [payload].flatten.length + unread.length ≤ bytes.length := by
    have whole := Payload.length_encode_le_of_read announced
    rw [Payload.length_encode] at whole
    rw [List.flatten_singleton]
    omega
  have shorter := type.read_consuming.bounded taken
  cases type with
  | bytes => exact framed taken
  | string => exact framed (readString_eq_ok.mp taken)
  | _ => simpa [payloads] using shorter

/-- A choice has the payload that it was made of. -/
theorem Kind.alternative_pays {type : ScalarType} {C : Type} {choose : type.Value → C}
    {chosen : C → Option type.Value} {own : Option C → Nat}
    (contained : ∀ value, own (some (choose value)) = (type.payloads value).flatten.length)
    (wire : Nat) {credit : Nat} :
    ((alternative type choose chosen).scan wire).Pays own 1 credit := by
  refine .ofReader fun {bytes} {value} {unread} taken before => ?_
  have inside := type.length_payloads_le_of_read taken
  rw [contained]
  omega

namespace Conformance

/-- The bytes of a payload, a text being encoded. -/
def RequestPayload.size : RequestPayload → Nat
  | protobuf bytes => bytes.length
  | json text | jspb text | textFormat text => (Utf8.encode text).length

namespace Request

/-- The bytes of the payload and of the message type of a request. -/
def size (request : Request) : Nat :=
  request.payload.elim 0 RequestPayload.size + (Utf8.encode request.messageType).length

/-- The row of a case of the payload. -/
theorem payload_pays {row : Field Request} {type : ScalarType} {choose : type.Value → RequestPayload}
    {chosen : RequestPayload → Option type.Value} {number : Nat}
    (case : row = ⟨number, .alternative type choose chosen, payload,
      fun value request => { request with payload := value }⟩)
    (lawful : row.Lawful)
    (contained : ∀ value, (choose value).size = (type.payloads value).flatten.length) (wire : Nat)
    {credit : Nat} : (row.scan wire).Pays size 1 credit := by
  subst case
  have choice : ((Kind.alternative type choose chosen).scan wire).Pays
      (fun payload => payload.elim 0 RequestPayload.size) 1 credit :=
    Kind.alternative_pays contained wire
  refine lawful.scan_pays choice fun bytes ended request => ?_
  simp only [Field.update, size]
  omega

/-- The row of the message type. -/
theorem messageType_pays {row : Field Request} {number : Nat}
    (text : row = ⟨number, .singular .string, messageType,
      fun value request => { request with messageType := value }⟩)
    (lawful : row.Lawful) (wire : Nat) {credit : Nat} : (row.scan wire).Pays size 1 credit := by
  subst text
  have member : ((Kind.singular .string).scan wire).Pays
      (fun text => (Utf8.encode text).length) 1 credit := by
    refine .ofReader fun {bytes} {text} {unread} taken before => ?_
    have inside := ScalarType.string.length_payloads_le_of_read taken
    rw [ScalarType.payloads, List.flatten_singleton] at inside
    omega
  refine lawful.scan_pays member fun bytes ended request => ?_
  simp only [Field.update, size]
  omega

theorem scan_pays : (Message.scan Request).Pays size 1 0 := by
  refine Message.scan_pays (MessageType.payload_eq .conformanceRequest) fun row member wire => ?_
  have lawful : row.Lawful := lawfulTable.lawful row member
  change row ∈ fields at member
  simp only [fields, List.mem_cons, List.not_mem_nil, or_false] at member
  have flat (bytes : Bytes) : bytes.length = [bytes].flatten.length := by rw [List.flatten_singleton]
  rcases member with binary | json | jspb | text | output | type | category | print
  · exact payload_pays binary lawful flat wire
  · exact payload_pays json lawful (fun text => flat (Utf8.encode text)) wire
  · exact payload_pays jspb lawful (fun text => flat (Utf8.encode text)) wire
  · exact payload_pays text lawful (fun text => flat (Utf8.encode text)) wire
  · subst output
    exact lawful.scan_pays_free wire fun _ _ => rfl
  · exact messageType_pays type lawful wire
  · subst category
    exact lawful.scan_pays_free wire fun _ _ => rfl
  · subst print
    exact lawful.scan_pays_free wire fun _ _ => rfl

/-- **What a request has in it is in its bytes.** -/
theorem size_le_of_decode {raw : Bytes} {request : Request} (read : Message.decode raw = .ok request) :
    request.size ≤ raw.length := by
  have paid := Message.cost_le_of_decode scan_pays read
  have empty : size Message.empty = 0 := by decide +kernel
  omega

end Request

/-! ### The texts of outcomes -/

theorem length_unknownName_le (number : Int32) : (Utf8.encode (unknownName number)).length ≤ 30 := by
  have first : (Utf8.encode "Unknown(").length = 8 := by decide +kernel
  have last : (Utf8.encode ")").length = 1 := by decide +kernel
  have digits : (Utf8.encode (toString number.toInt)).length ≤ 21 := by
    have word : UInt64.size = 2 ^ 64 := rfl
    have least := number.le_toInt
    have most := number.toInt_lt
    generalize number.toInt = shown at least most
    cases shown with
    | ofNat n =>
      have fits : (n : Int) < 2 ^ 31 := most
      have short := Utf8.length_encode_repr (n := n) (by omega)
      show (Utf8.encode n.repr).length ≤ 21
      omega
    | negSucc n =>
      have sign : (Utf8.encode "-").length = 1 := by decide +kernel
      have short := Utf8.length_encode_repr (n := n + 1) (by omega)
      show (Utf8.encode ("-" ++ (n + 1).repr)).length ≤ 21
      rw [Utf8.encode_append, List.length_append]
      omega
  show (Utf8.encode ("Unknown(" ++ toString number.toInt ++ ")")).length ≤ 30
  simp only [Utf8.encode_append, List.length_append]
  omega

theorem WireFormat.length_name_le (format : WireFormat) :
    (Utf8.encode (OpenEnum.name format)).length ≤ 30 := by
  cases format with
  | unknown number => exact length_unknownName_le number
  | _ => decide +kernel

namespace Testee

/-- What a payload is answered with. -/
theorem length_rewritten_le {bytes payload : Bytes} (small : bytes.length ≤ Frame.defaultLimit)
    (member : payload ∈ Message.payloads (⟨some (rewritten bytes)⟩ : Response)) :
    3 * payload.length ≤ 7 * bytes.length + 300 := by
  unfold rewritten at member
  split at member
  · next message accepted =>
    obtain rfl : payload = Message.encode message := List.mem_singleton.mp member
    have bound := FooBar.Example1.length_encode_le_of_decode accepted
    omega
  · next fault failed =>
    obtain rfl : payload = Utf8.encode fault.message := List.mem_singleton.mp member
    have short := MessageType.length_message_le .example1
      (Nat.lt_of_le_of_lt small (by decide)) failed
    omega

/-- **What a response carries is at most seven thirds of its request and a hundred bytes long.** -/
theorem length_payload_le {raw : Bytes} {request : Request} (small : raw.length ≤ Frame.defaultLimit)
    (read : Message.decode raw = .ok request) {payload : Bytes}
    (member : payload ∈ Message.payloads (handle request)) :
    3 * payload.length ≤ 7 * raw.length + 300 := by
  have inside := Request.size_le_of_decode read
  have skipped {text : String} (short : (Utf8.encode text).length ≤ raw.length + 60)
      (member : payload ∈ Message.payloads (⟨some (.skipped text)⟩ : Response)) :
      3 * payload.length ≤ 7 * raw.length + 300 := by
    obtain rfl : payload = Utf8.encode text := List.mem_singleton.mp member
    omega
  have reason {words name : String} (few : (Utf8.encode words).length ≤ 30)
      (short : (Utf8.encode name).length ≤ raw.length + 30) :
      (Utf8.encode (words ++ name)).length ≤ raw.length + 60 := by
    rw [Utf8.encode_append, List.length_append]
    omega
  have named (format : WireFormat) :
      (Utf8.encode (OpenEnum.name format)).length ≤ raw.length + 30 :=
    Nat.le_trans format.length_name_le (Nat.le_add_left _ _)
  unfold handle outcome at member
  split at member
  · obtain rfl : payload = [] := List.mem_singleton.mp member
    exact Nat.zero_le _
  split at member
  · refine skipped (reason (by decide +kernel) ?_) member
    unfold Request.size at inside
    omega
  split at member
  · have words : (Utf8.encode "missing payload").length ≤ 60 := by decide +kernel
    exact skipped (Nat.le_trans words (Nat.le_add_left _ _)) member
  · next bytes given =>
    split at member
    · rw [Request.size, given] at inside
      have part : bytes.length ≤ raw.length := Nat.le_trans (Nat.le_add_right _ _) inside
      have bound := length_rewritten_le (Nat.le_trans part small) member
      omega
    · exact skipped (reason (by decide +kernel) (named request.requestedOutputFormat)) member
  · next other _ _ => exact skipped (reason (by decide +kernel) (named other.format)) member

/-- **A response is at most three times as long as its request, and 128 bytes.** -/
theorem length_handleRaw_le {raw response : Bytes} (small : raw.length ≤ Frame.defaultLimit)
    (handled : handleRaw raw = .ok response) : response.length ≤ 3 * raw.length + 128 := by
  rw [handleRaw_eq] at handled
  cases read : (Message.decode raw : Except Fault Request) with
  | error fault =>
    rw [read] at handled
    cases handled
  | ok request =>
    rw [read] at handled
    obtain rfl : Message.encode (handle request) = response := Except.ok.inj handled
    obtain ⟨payload, member, whole⟩ := Response.length_encode (outcome request)
    have bound := length_payload_le small read member
    have limit : Frame.defaultLimit = 2 ^ 26 := by decide
    have length : (Varint.encode payload.length).length ≤ 4 := Varint.length_encode_le (by omega)
    rw [handle]
    omega

/-- What is written for a request has payloads whose length may be written. -/
theorem fits_handle {raw : Bytes} {request : Request} (small : raw.length ≤ Frame.defaultLimit)
    (read : Message.decode raw = .ok request) : Message.Fits (handle request) := by
  intro payload member
  have bound := length_payload_le small read member
  have limit : Frame.defaultLimit = 2 ^ 26 := by decide
  have most : maxLength = 2 ^ 31 - 1 := by decide
  omega

/-- The message of a payload that is processed is written with such payloads, too. -/
theorem Processes.fits {raw payload : Bytes} {request : Request} {message : FooBar.Example1}
    (processes : Processes request payload) (small : raw.length ≤ Frame.defaultLimit)
    (read : Message.decode raw = .ok request) (accepted : Message.decode payload = .ok message) :
    Message.Fits message := by
  refine LawfulMessage.fits_of_length_le (fits_handle small read _ ?_)
  rw [processes.handle_eq accepted]
  exact List.mem_singleton_self _

end Testee

/-! ### Frames -/

/-- **A request of the default limit is answered with a frame.** -/
theorem Frame.answer_of_decode {raw : Bytes} {request : Request} (small : raw.length ≤ defaultLimit)
    (read : Message.decode raw = .ok request) :
    answer raw.length raw = .ok (encode (Message.encode (Testee.handle request))) := by
  have handled : Testee.handleRaw raw = .ok (Message.encode (Testee.handle request)) := by
    rw [Testee.handleRaw_eq, read]
    rfl
  rw [answer_of_length rfl, handled]
  exact if_neg (Nat.not_lt_of_le (Response.length_encode_le (Testee.fits_handle small read)))

theorem Frame.answer_ne_frameTooLarge {length : Nat} {body : Bytes}
    (small : body.length ≤ defaultLimit) (most bound : Nat) :
    answer length body ≠ .error (.frameTooLarge most bound) := by
  intro refused
  by_cases whole : body.length = length
  · subst whole
    cases read : (Message.decode body : Except Fault Request) with
    | error fault =>
      rw [answer_of_length rfl, Testee.handleRaw_eq, read] at refused
      cases refused
    | ok request =>
      rw [answer_of_decode small read] at refused
      cases refused
  · rw [answer, if_pos whole] at refused
    cases refused

theorem Frame.announced_frameTooLarge {limit length bound : Nat} {bytes : Bytes}
    (refused : announced limit bytes = .error (.frameTooLarge length bound)) :
    bound = limit ∧ limit < length := by
  unfold announced at refused
  split at refused
  · cases refused
  · split at refused
    · dsimp only at refused
      split at refused
      · next large =>
        cases refused
        exact ⟨rfl, large⟩
      · cases refused
    · cases refused

/-- A service with a limit of at most the default one ends so only for an announced length. -/
theorem Closing.frameTooLarge {limit served length bound : Nat} (small : limit ≤ Frame.defaultLimit)
    (closing : Closing limit served (.error (.frameTooLarge length bound))) :
    bound = limit ∧ limit < length := by
  cases closing with
  | announced refused => exact Frame.announced_frameTooLarge refused
  | answered admitted short refused =>
    have few := Nat.le_trans short (Nat.le_trans admitted small)
    exact absurd refused (Frame.answer_ne_frameTooLarge few length bound)

/-- **No length is refused but one that is announced**, whatever the writer. -/
theorem serve_frameTooLarge {limit : Nat} (small : limit ≤ Frame.defaultLimit) {source : Source}
    {sink : Sink} {served length bound : Nat}
    (refused : (serve limit source sink served).result = .error (.frameTooLarge length bound)) :
    bound = limit ∧ limit < length := by
  induction size : source.weight using Nat.strong_induction_on generalizing source sink served with
  | _ size ih =>
    subst size
    rcases serve_round limit source served with
      ⟨result, closing, ended⟩ | ⟨response, rest, -, less, round⟩
    · rw [ended] at refused
      dsimp only at refused
      subst refused
      exact closing.frameTooLarge small
    · rw [round] at refused
      rcases written : sink.write (Frame.encode response) with ⟨failure | done, after⟩ <;>
        rw [written] at refused
      · rw [Sink.write_eq_error written] at refused
        cases refused
      · exact ih _ less refused rfl

namespace Testee

/-- **Amplification is bounded.** A payload is written again in at most seven thirds of its bytes, and a
response to a request of the default limit is at most three times as long as it and 128 bytes. So
nothing that is written for such a request has a payload whose length may not be written, the response
can be framed, and a service whose limit is at most the default one refuses no length but one that is
announced. -/
theorem amplification_bounded :
    (∀ (payload : Bytes) (message : FooBar.Example1), Message.decode payload = .ok message →
      3 * (Message.encode message).length ≤ 7 * payload.length) ∧
    (∀ raw response : Bytes, raw.length ≤ Frame.defaultLimit → handleRaw raw = .ok response →
      response.length ≤ 3 * raw.length + 128) ∧
    (∀ (raw : Bytes) (request : Request), raw.length ≤ Frame.defaultLimit →
      Message.decode raw = .ok request →
      Message.Fits (handle request) ∧
      (∀ (payload : Bytes) (message : FooBar.Example1), Processes request payload →
        Message.decode payload = .ok message → Message.Fits message) ∧
      Frame.answer raw.length raw = .ok (Frame.encode (Message.encode (handle request)))) ∧
    ∀ (limit : Nat) (source : Source) (sink : Sink) (served length bound : Nat),
      limit ≤ Frame.defaultLimit →
      (serve limit source sink served).result = .error (.frameTooLarge length bound) →
      bound = limit ∧ limit < length :=
  ⟨fun _ _ accepted => FooBar.Example1.length_encode_le_of_decode accepted,
    fun _ _ small handled => length_handleRaw_le small handled,
    fun _ _ small read => ⟨fits_handle small read,
      fun _ _ processes accepted => processes.fits small read accepted,
      Frame.answer_of_decode small read⟩,
    fun _ _ _ _ _ _ small refused => serve_frameTooLarge small refused⟩

/-- An entry of the map with neither a key nor a value. -/
def bareEntry : Bytes := [0xC2, 0x01, 0x00]

/-- The message that it is read as. -/
def bareMap : FooBar.Example1 := { amap := TextMap.empty.insert "" "" }

/-- The request for it. -/
def bareRequest : Request := debugRequest supportedMessageType bareEntry

/-- The entry is written again in seven bytes, which is seven thirds of its three. -/
theorem amplification_bounded_bareEntry :
    (3 * (Message.encode bareMap).length ≤ 7 * bareEntry.length ∧
      (Message.encode bareMap).length = 7 ∧ Message.Fits bareMap) ∧
    (∃ response, handleRaw (Message.encode bareRequest) = .ok response ∧
      response.length ≤ 3 * (Message.encode bareRequest).length + 128 ∧
      Frame.answer (Message.encode bareRequest).length (Message.encode bareRequest)
        = .ok (Frame.encode response)) ∧
    (serve 16 [.chunk [0xFF, 0xFF, 0xFF, 0xFF]] {} 0).result
      = .error (.frameTooLarge 0xFFFFFFFF 16) ∧ 16 < 0xFFFFFFFF := by
  obtain ⟨rewriting, responses, requests, refusals⟩ := amplification_bounded
  have accepted : Message.decode bareEntry = .ok bareMap := by decide +kernel
  have small : (Message.encode bareRequest).length ≤ Frame.defaultLimit := by decide +kernel
  have read : Message.decode (Message.encode bareRequest) = .ok bareRequest :=
    LawfulMessage.decode_encode (isCanonical_debugRequest _ _) (by decide +kernel)
  have handled : handleRaw (Message.encode bareRequest)
      = .ok (Message.encode (handle bareRequest)) := by
    rw [handleRaw_eq, read]
    rfl
  have refused : (serve 16 [.chunk [0xFF, 0xFF, 0xFF, 0xFF]] {} 0).result
      = .error (.frameTooLarge 0xFFFFFFFF 16) := by cbv
  obtain ⟨-, fits, framed⟩ := requests _ bareRequest small read
  exact ⟨⟨rewriting bareEntry bareMap accepted, by decide +kernel,
      fits bareEntry bareMap ⟨rfl, rfl, rfl⟩ accepted⟩,
    ⟨_, handled, responses _ _ small handled, framed⟩,
    refused, (refusals 16 _ {} 0 _ _ (by decide) refused).2⟩

end Testee

end Conformance

end Protobuf
