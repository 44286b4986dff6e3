import Minikura.Data.Json
import Minikura.Data.Utf8Framing

/-!
# Terminal output

The exec socket carries several channels, named by the first byte of each message. Standard
output is decoded message by message and sent on. The exec is requested with a terminal, for
which Kubernetes leaves standard error empty.

## Main definitions

* `handleMessage` — the handler of `k8sWs.on("message")`, with `processBuffer`.

## Main result

* `shownOutput_eq_iff` — which messages give the client what has been written.
-/

namespace Minikura.Backend.Terminal

open Utf8Decoder

/-- What the client is sent; the data of an error can come from a status of Kubernetes. -/
inductive Reply where
  | output (data : String)
  | ready (data : String)
  | error (data : Json)
  | close (data : String)

inductive RawData where
  /-- A `Uint8Array` or a `Buffer`. -/
  | bytes (buffer : List UInt8)
  | arrayBuffer (buffer : List UInt8)
  | buffers (parts : List (List UInt8))
  | other

def RawData.buffer : RawData → Option (List UInt8)
  | .bytes buffer | .arrayBuffer buffer => some buffer
  | .buffers parts => some parts.flatten
  | .other => none

/-- What `a || b` takes for true. -/
def truthy : Json → Bool
  | .null => false
  | .bool b => b
  | .num n => n ≠ 0
  | .str s => s ≠ ""
  | .arr _ | .obj _ => true

section Handler

variable (parse : String → Option Json)

/-- A status that cannot be read is shown as it is; so is `null`, which has no fields. -/
def statusReplies (message : String) : List Reply :=
  match parse message with
  | none | some .null => [.error (.str message)]
  | some status =>
    if (status.get? "status").bind Json.str? = some "Success" then []
    else
      match status.get? "message" with
      | some data => [.error (if truthy data then data else .str message)]
      | none => [.error (.str message)]

def processBuffer : List UInt8 → List Reply
  | [] => []
  | channel :: payload =>
    let message := String.ofList (textDecode payload)
    if channel = 1 ∨ channel = 2 then [.output message]
    else if channel = 3 then statusReplies parse message
    else []

def handleMessage (data : RawData) : List Reply :=
  match data.buffer with
  | some buffer => processBuffer parse buffer
  | none => []

end Handler

/-! ## What the client sees -/

def Reply.text : Reply → List Char
  | .output data => data.toList
  | _ => []

/-- The data of the output messages, one after another. -/
def shownOutput (parse : String → Option Json) (messages : List RawData) : List Char :=
  (messages.flatMap (handleMessage parse)).flatMap Reply.text

def RawData.payload (channel : UInt8) (data : RawData) : Option (List UInt8) :=
  match data.buffer with
  | some (c :: payload) => if c = channel then some payload else none
  | _ => none

/-- What the messages of a channel carry. -/
def payloads (channel : UInt8) (messages : List RawData) : List (List UInt8) :=
  messages.filterMap (RawData.payload channel)

/-- With a terminal there is no standard error of its own. -/
def NoStandardError (messages : List RawData) : Prop :=
  ∀ payload ∈ payloads 2 messages, payload = []

section Framing

variable {parse : String → Option Json} {messages : List RawData}

theorem text_statusReplies (message : String) :
    (statusReplies parse message).flatMap Reply.text = [] := by
  unfold statusReplies
  split
  · rfl
  · rfl
  · split_ifs
    · rfl
    · split <;> rfl

theorem text_handleMessage {data : RawData} (h : data.payload 2 = some [] ∨ data.payload 2 = none) :
    (handleMessage parse data).flatMap Reply.text =
      ((data.payload 1).map textDecode).getD [] := by
  unfold handleMessage RawData.payload at *
  generalize data.buffer = buffer at *
  cases buffer with
  | none => rfl
  | some buffer =>
    cases buffer with
    | nil => rfl
    | cons channel payload =>
      simp only [processBuffer]
      by_cases hone : channel = 1
      · simp [hone, Reply.text]
      · by_cases htwo : channel = 2
        · obtain rfl : payload = [] := by simpa [htwo] using h
          simp [htwo, Reply.text, textDecode, decodeFrom_none_nil, stripMark]
        · rw [if_neg (by simp [hone, htwo]), if_neg hone]
          split_ifs
          · exact text_statusReplies _
          · rfl

theorem shownOutput_eq (h : NoStandardError messages) :
    shownOutput parse messages = (payloads 1 messages).flatMap textDecode := by
  induction messages with
  | nil => rfl
  | cons data messages ih =>
    have hdata : data.payload 2 = some [] ∨ data.payload 2 = none := by
      cases hpayload : data.payload 2 with
      | none => exact .inr rfl
      | some payload =>
        have hmem : payload ∈ payloads 2 (data :: messages) := by
          simp [payloads, hpayload]
        exact .inl (by rw [h payload hmem])
    have hmessages : NoStandardError messages := by
      intro payload hpayload
      obtain ⟨d, hd, hp⟩ := List.mem_filterMap.mp hpayload
      exact h payload (List.mem_filterMap.mpr ⟨d, by simp [hd], hp⟩)
    have hcons : shownOutput parse (data :: messages) =
        (handleMessage parse data).flatMap Reply.text ++ shownOutput parse messages := by
      simp [shownOutput]
    rw [hcons, text_handleMessage hdata, ih hmessages, payloads, payloads]
    cases hpayload : data.payload 1 with
    | none => simp [hpayload]
    | some payload => simp [hpayload]

/-- The client sees what has been written just if every message ends between two characters and
none but the first begins with a byte order mark. -/
theorem shownOutput_eq_iff {written : ByteArray} (hvalid : written.IsValidUTF8)
    (hwritten : (payloads 1 messages).flatten = written.data.toList)
    (hnonempty : ∀ payload ∈ payloads 1 messages, payload ≠ [])
    (hterminal : NoStandardError messages) :
    shownOutput parse messages = textDecode written.data.toList ↔
      (∀ payload ∈ payloads 1 messages, IsWhole payload) ∧
      ∀ payload ∈ (payloads 1 messages).tail, ¬ markBytes <+: payload := by
  obtain ⟨text, rfl⟩ := hvalid
  have hencode : (List.utf8Encode text).data.toList = textEncode text := by
    simp [List.utf8Encode, textEncode]
  rw [hencode] at hwritten ⊢
  rw [shownOutput_eq hterminal]
  cases hpayloads : payloads 1 messages with
  | nil =>
    rw [hpayloads] at hwritten
    rw [← hwritten]
    simp [textDecode, decodeFrom_none_nil, stripMark]
  | cons first rest =>
    rw [hpayloads] at hwritten hnonempty
    rw [flatMap_textDecode_iff hwritten (hnonempty first (by simp)), List.tail_cons,
      List.forall_mem_cons, and_assoc]
    exact and_congr_right fun _ => forall₂_and

end Framing

/-- Two characters, each in a message of its own, and an empty one of standard error. -/
def wholeMessages : List RawData := [.bytes [1, 0xC3, 0xA9], .bytes [2], .bytes [1, 0x21]]

theorem shownOutput_wholeMessages :
    shownOutput (fun _ => none) wholeMessages = textDecode "é!".toUTF8.data.toList :=
  (shownOutput_eq_iff "é!".isValidUTF8 (by decide) (by decide)
    (by unfold NoStandardError; decide)).mpr (by decide)

/-- A character that is cut into two messages is shown as two replacements. -/
theorem cut_character_not_shown : ¬ ∀ (written : ByteArray) (messages : List RawData),
    written.IsValidUTF8 → (payloads 1 messages).flatten = written.data.toList →
    (∀ payload ∈ payloads 1 messages, payload ≠ []) → NoStandardError messages →
    shownOutput (fun _ => none) messages = textDecode written.data.toList := by
  intro h
  have := h "é".toUTF8 [.bytes [1, 0xC3], .bytes [1, 0xA9]] "é".isValidUTF8 (by decide) (by decide)
    (by unfold NoStandardError; decide)
  exact absurd this (by decide)

end Minikura.Backend.Terminal
